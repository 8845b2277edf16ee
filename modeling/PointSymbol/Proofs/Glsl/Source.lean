import Mathlib.Data.List.Infix
import PointSymbol.Glsl.Program
import PointSymbol.Proofs.Glsl.Reader

/-!
# Reading programs

A source declares the precision of floats and the interface, and then lists the statements of the
main function. The text of a program whose names are identifiers is read as the program.
-/

namespace PointSymbol.Glsl

def Qualifier.ofName? (name : String) : Option Qualifier :=
  [uniform, attrib, varying].find? fun q => q.name = name

@[simp] theorem Qualifier.ofName?_name (q : Qualifier) : ofName? q.name = some q := by
  cases q <;> decide

namespace Program

def empty : Program := ⟨[], [], [], []⟩

/-- Declares variables before those that the program has. -/
def declare (q : Qualifier) (vs : List Variable) (p : Program) : Program :=
  match q with
  | .uniform => { p with uniforms := vs ++ p.uniforms }
  | .attrib => { p with attributes := vs ++ p.attributes }
  | .varying => { p with varyings := vs ++ p.varyings }

theorem declare_cons (q : Qualifier) (v : Variable) (vs : List Variable) (p : Program) :
    (p.declare q vs).declare q [v] = p.declare q (v :: vs) := by
  cases q <;> rfl

@[simp] theorem declare_nil (q : Qualifier) (p : Program) : p.declare q [] = p := by
  cases q <;> rfl

/-- The declarations in front, and what follows them. -/
def readInterface? : List Token → Option (Program × List Token)
  | .word q :: .word t :: .word n :: .mark .semicolon :: ts => do
    let q ← Qualifier.ofName? q
    let t ← ValueType.ofName? t
    let (p, rest) ← readInterface? ts
    return (p.declare q [⟨t, n⟩], rest)
  | ts => some (empty, ts)

end Program

def Statement.read? : List Token → Option Statement
  | .word n :: .mark .assign :: ts => (Expr.read? ts).map (.assign n)
  | .word t :: .word n :: .mark .assign :: ts => do
    let t ← ValueType.ofName? t
    let e ← Expr.read? ts
    return .declare ⟨t, n⟩ e
  | _ => none

namespace Program

/-- Statements end with semicolons, and the last is followed by the closing brace. -/
def readBody? (ts : List Token) : Option (List Statement) := do
  let parts := ts.splitOn (.mark .semicolon)
  guard (parts.getLast? = some [.mark .rightBrace])
  parts.dropLast.mapM Statement.read?

def readTokens? (ts : List Token) : Option Program := do
  let ts ← [.word "precision", .word "mediump", .word "float", .mark .semicolon].isPrefixOf? ts
  let (p, ts) ← readInterface? ts
  let ts ← [.word "void", .word "main", .mark .leftParen, .word "void", .mark .rightParen,
    .mark .leftBrace].isPrefixOf? ts
  let body ← readBody? ts
  return { p with body }

def read? (source : String) : Option Program := (scan source.toList).bind readTokens?

end Program

/-! ## Names -/

namespace Statement

def target : Statement → String
  | declare v _ => v.name
  | assign n _ => n

def value : Statement → Expr
  | declare _ e | assign _ e => e

@[simp] theorem value_declare (v : Variable) (e : Expr) : (declare v e).value = e := rfl

@[simp] theorem value_assign (n : String) (e : Expr) : (assign n e).value = e := rfl

def names (s : Statement) : List String := s.target :: s.value.names

end Statement

namespace Program

def names (p : Program) : List String :=
  (p.uniforms ++ p.attributes ++ p.varyings).map Variable.name ++ p.body.flatMap Statement.names

def WellNamed (p : Program) : Prop := ∀ n ∈ p.names, isIdentifier n

end Program

theorem isName_qualifier (q : Qualifier) : isName q.name := by
  cases q <;> decide

/-! ## Statements -/

namespace Statement
variable {s : Statement}

/-- The tokens of a statement before its semicolon. -/
def front (s : Statement) : List Token :=
  match s with
  | declare v e => .word v.type.name :: .word v.name :: .mark .assign :: tokens (e.pieces 0)
  | assign n e => .word n :: .mark .assign :: tokens (e.pieces 0)

theorem tokens_pieces (s : Statement) : tokens s.pieces = s.front ++ [.mark .semicolon] := by
  cases s <;> simp [pieces, front, Variable.pieces, spaced]

theorem read?_value (h : ∀ n ∈ s.names, isIdentifier n) :
    Expr.read? (tokens (s.value.pieces 0)) = some s.value :=
  Expr.read?_pieces fun n hn => h n (List.mem_cons_of_mem _ hn)

theorem read?_front (h : ∀ n ∈ s.names, isIdentifier n) : read? s.front = some s := by
  have hvalue := read?_value h
  cases s with
  | declare v e =>
    rw [value_declare] at hvalue
    simp [front, read?, hvalue]
  | assign n e =>
    rw [value_assign] at hvalue
    simp [front, read?, hvalue]

theorem semicolon_not_mem_front (h : ∀ n ∈ s.names, isIdentifier n) :
    .mark .semicolon ∉ s.front := by
  have hvalue := Expr.semicolon_not_mem_of_read? (read?_value h)
  cases s with
  | declare v e =>
    rw [value_declare] at hvalue
    simpa [front] using hvalue
  | assign n e =>
    rw [value_assign] at hvalue
    simpa [front] using hvalue

theorem scans_pieces (h : ∀ n ∈ s.names, isIdentifier n) : Scans s.pieces := by
  have htarget := scans_word (isName_of_isIdentifier (h s.target (by simp [names])))
  have hvalue := Glsl.scans_pieces (e := s.value) (fun n hn => h n (List.mem_cons_of_mem _ hn)) 0
  cases s with
  | declare v e =>
    have hdeclare := (scans_word (isName_valueType v.type)).append_soft (p := .space) rfl htarget
    exact (hdeclare.spaced .assign hvalue).append_singleton rfl
  | assign n e => exact (htarget.spaced .assign hvalue).append_singleton rfl

end Statement

/-! ## Programs -/

namespace Program

theorem readInterface?_declarations (q : Qualifier) (vs : List Variable) (ts : List Token) :
    readInterface? (tokens (declarations q vs) ++ ts) =
      (readInterface? ts).map fun (p, rest) => (p.declare q vs, rest) := by
  induction vs with
  | nil => simp [declarations]
  | cons v vs ih =>
    have hcons : tokens (declarations q (v :: vs)) ++ ts =
        .word q.name :: .word v.type.name :: .word v.name :: .mark .semicolon ::
          (tokens (declarations q vs) ++ ts) := by
      simp [declarations, Qualifier.declaration, Variable.pieces, line]
    rw [hcons, readInterface?, ih]
    cases readInterface? ts with
    | none => simp
    | some r => simp [declare_cons]

theorem splitOn_front {body : List Statement} (h : ∀ s ∈ body, ∀ n ∈ s.names, isIdentifier n) :
    ((body.flatMap fun s => s.front ++ [Token.mark .semicolon]) ++
        [Token.mark .rightBrace]).splitOn (.mark .semicolon) =
      body.map Statement.front ++ [[.mark .rightBrace]] := by
  induction body with
  | nil => decide
  | cons s body ih =>
    have hs := Statement.semicolon_not_mem_front (h s (by simp))
    rw [List.flatMap_cons, List.append_assoc, List.append_assoc, List.cons_append,
      List.nil_append, List.splitOn_append_cons_self_of_not_mem hs,
      ih fun s hs => h s (by simp [hs]), List.map_cons, List.cons_append]

theorem mapM_read?_front {body : List Statement} (h : ∀ s ∈ body, ∀ n ∈ s.names, isIdentifier n) :
    (body.map Statement.front).mapM Statement.read? = some body := by
  induction body with
  | nil => rfl
  | cons s body ih =>
    rw [List.map_cons, List.mapM_cons, Statement.read?_front (h s (by simp)),
      ih fun s hs => h s (by simp [hs])]
    rfl

theorem readBody?_front {body : List Statement} (h : ∀ s ∈ body, ∀ n ∈ s.names, isIdentifier n) :
    readBody? ((body.flatMap fun s => s.front ++ [Token.mark .semicolon]) ++
      [Token.mark .rightBrace]) = some body := by
  rw [readBody?, splitOn_front h]
  simp [mapM_read?_front h]

variable {p : Program}

theorem tokens_body (body : List Statement) :
    tokens (body.flatMap fun s => [.space, .space] ++ line s.pieces) =
      body.flatMap fun s => s.front ++ [.mark .semicolon] := by
  induction body with
  | nil => rfl
  | cons s body ih =>
    rw [List.flatMap_cons, tokens_append, ih, List.flatMap_cons]
    simp [Statement.tokens_pieces]

theorem tokens_pieces (p : Program) : tokens p.pieces =
    tokens precision ++ (tokens (declarations .uniform p.uniforms) ++
      (tokens (declarations .attrib p.attributes) ++ (tokens (declarations .varying p.varyings) ++
        (tokens mainHead ++ ((p.body.flatMap fun s => s.front ++ [Token.mark .semicolon]) ++
          [Token.mark .rightBrace]))))) := by
  simp only [pieces, tokens_append, tokens_line, tokens_body, tokens_newline, tokens_mark,
    tokens_nil, List.nil_append, List.append_assoc]

theorem readInterface?_mainHead (ts : List Token) :
    readInterface? (tokens mainHead ++ ts) = some (empty, tokens mainHead ++ ts) := rfl

/-- The tokens of a program are read as the program. -/
theorem readTokens?_pieces (h : p.WellNamed) : readTokens? (tokens p.pieces) = some p := by
  have hbody : ∀ s ∈ p.body, ∀ n ∈ s.names, isIdentifier n := fun s hs n hn =>
    h n (List.mem_append_right _ (List.mem_flatMap_of_mem hs hn))
  have hinterface (ts : List Token) :
      readInterface? (tokens (declarations .uniform p.uniforms) ++
        (tokens (declarations .attrib p.attributes) ++ (tokens (declarations .varying p.varyings) ++
          (tokens mainHead ++ ts)))) = some ({ p with body := [] }, tokens mainHead ++ ts) := by
    rw [readInterface?_declarations, readInterface?_declarations, readInterface?_declarations,
      readInterface?_mainHead]
    simp [declare, empty]
  have hprecision (ts : List Token) : [.word "precision", .word "mediump", .word "float",
      .mark .semicolon].isPrefixOf? (tokens precision ++ ts) = some ts :=
    List.isPrefixOf?_eq_some_iff_append_eq.mpr rfl
  have hhead (ts : List Token) : [.word "void", .word "main", .mark .leftParen, .word "void",
      .mark .rightParen, .mark .leftBrace].isPrefixOf? (tokens mainHead ++ ts) = some ts :=
    List.isPrefixOf?_eq_some_iff_append_eq.mpr rfl
  rw [tokens_pieces, readTokens?, hprecision, Option.bind_eq_bind, Option.bind_some, hinterface]
  simp only [Option.bind_eq_bind, Option.bind_some, hhead, readBody?_front hbody]
  rfl

theorem closes_declarations {vs : List Variable} (h : ∀ v ∈ vs, isIdentifier v.name)
    (q : Qualifier) : Closes (declarations q vs) := by
  refine closes_flatMap fun v hv => ?_
  have hname := scans_word (isName_of_isIdentifier (h v hv))
  have hvariable := (scans_word (isName_valueType v.type)).append_soft (p := .space) rfl hname
  have hqualified := (scans_word (isName_qualifier q)).append_soft (p := .space) rfl hvariable
  exact (hqualified.append_singleton (p := .mark .semicolon) rfl).closes_line

theorem closes_body {body : List Statement} (h : ∀ s ∈ body, ∀ n ∈ s.names, isIdentifier n) :
    Closes (body.flatMap fun s => [.space, .space] ++ line s.pieces) := by
  refine closes_flatMap fun s hs => ?_
  exact ((closes_soft rfl).append (closes_soft rfl)).append
    (Statement.scans_pieces (h s hs)).closes_line

theorem scans_precision : Scans precision := by
  have hprecision : Scans [.word "precision"] := scans_word (by decide)
  have hmediump : Scans [.word "mediump"] := scans_word (by decide)
  have hfloat : Scans [.word "float"] := scans_word (by decide)
  have hend := hfloat.append_singleton (p := .mark .semicolon) rfl
  exact hprecision.append_soft (p := .space) rfl (hmediump.append_soft (p := .space) rfl hend)

theorem scans_mainHead : Scans mainHead := by
  have hvoid : Scans [.word "void"] := scans_word (by decide)
  have hmain : Scans [.word "main"] := scans_word (by decide)
  have hbrace : Scans [.space, .mark .leftBrace] :=
    (scans_nil.append_singleton (p := .mark .leftBrace) rfl).soft_append rfl
  have hparameters := hvoid.append_soft (p := .mark .rightParen) rfl hbrace
  exact (hvoid.append_soft (p := .space) rfl hmain).append_soft (p := .mark .leftParen) rfl
    hparameters

theorem scans_pieces (h : p.WellNamed) : Scans p.pieces := by
  have hvariable {v : Variable} (hv : v ∈ p.uniforms ++ p.attributes ++ p.varyings) :
      isIdentifier v.name :=
    h _ (List.mem_append_left _ (List.mem_map_of_mem hv))
  have hbody : ∀ s ∈ p.body, ∀ n ∈ s.names, isIdentifier n := fun s hs n hn =>
    h n (List.mem_append_right _ (List.mem_flatMap_of_mem hs hn))
  have hnewline : Closes [.newline] := closes_soft rfl
  have huniforms : Closes (declarations .uniform p.uniforms) :=
    closes_declarations (fun v hv => hvariable (by simp [hv])) .uniform
  have hattributes : Closes (declarations .attrib p.attributes) :=
    closes_declarations (fun v hv => hvariable (by simp [hv])) .attrib
  have hvaryings : Closes (declarations .varying p.varyings) :=
    closes_declarations (fun v hv => hvariable (by simp [hv])) .varying
  have hend : Closes (line [.mark .rightBrace]) :=
    (scans_nil.append_singleton (p := .mark .rightBrace) rfl).closes_line
  exact ((((((((scans_precision.closes_line.append huniforms).append hnewline).append
    hattributes).append hnewline).append hvaryings).append hnewline).append
    scans_mainHead.closes_line).append (closes_body hbody) |>.append hend).scans

/-- Reading a source gives back the program that it was written from. -/
theorem read?_text (h : p.WellNamed) : read? p.text = some p := by
  rw [read?, text, scan_write (scans_pieces h), Option.bind_some, readTokens?_pieces h]

theorem text_inj {q : Program} (hp : p.WellNamed) (hq : q.WellNamed) :
    p.text = q.text ↔ p = q := by
  constructor
  · intro h
    have hread := read?_text hp
    rw [h, read?_text hq] at hread
    exact (Option.some.inj hread).symm
  · rintro rfl
    rfl

/-- Every statement of the body stands in the source as it is written. -/
theorem exists_append_of_mem_body {s : Statement} (hs : s ∈ p.body) :
    ∃ before after, p.text = before ++ write s.pieces ++ after := by
  have hline : s.pieces <:+: [.space, .space] ++ line s.pieces :=
    ⟨[.space, .space], [.newline], List.append_assoc _ _ _⟩
  have hbody := List.infix_of_mem_flatten
    (List.mem_map_of_mem (f := fun s => [Piece.space, .space] ++ line s.pieces) hs)
  rw [← List.flatMap_def] at hbody
  have hpieces : (p.body.flatMap fun s => [.space, .space] ++ line s.pieces) <:+: p.pieces :=
    List.infix_append _ _ _
  obtain ⟨before, after, h⟩ := (hline.trans hbody).trans hpieces
  exact ⟨write before, write after, by rw [text, ← h, write_append, write_append]⟩

end Program

end PointSymbol.Glsl
