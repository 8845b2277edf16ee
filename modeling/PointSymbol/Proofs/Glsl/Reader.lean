import PointSymbol.Glsl.Expr
import PointSymbol.Proofs.Glsl.Lexer
import PointSymbol.Proofs.Glsl.Literal

/-!
# Reading expressions

A stack machine with operator precedences reads the tokens of an expression one by one. On the
tokens of a written expression it gives the expression back. The invariant is that the operands on
the stack bind less tightly than the place where an expression begins.
-/

namespace PointSymbol.Glsl

inductive Operator where
  | mul
  | add
  | equal
  | or
  deriving DecidableEq

namespace Operator

def mark : Operator → Mark
  | mul => .star
  | add => .plus
  | equal => .equal
  | or => .or

/-- Operators of a higher level bind more tightly, and each groups to the left. -/
def level : Operator → Nat
  | mul => 4
  | add => 3
  | equal => 2
  | or => 1

def apply : Operator → Expr → Expr → Expr
  | mul => .mul
  | add => .add
  | equal => .equal
  | or => .or

def ofMark? (m : Mark) : Option Operator := [mul, add, equal, or].find? fun op => op.mark = m

@[simp] theorem ofMark?_mark (op : Operator) : ofMark? op.mark = some op := by
  cases op <;> rfl

theorem level_pos (op : Operator) : 0 < op.level := by
  cases op <;> decide

end Operator

def ValueType.ofName? (name : String) : Option ValueType :=
  [float, vec2, vec4, mat4].find? fun t => t.name = name

@[simp] theorem ValueType.ofName?_name (t : ValueType) : ofName? t.name = some t := by
  cases t <;> decide

/-- A float literal has a point; a minus in front of it belongs to the literal. -/
def Literal.read? (negative : Bool) (cs : List Char) : Option Literal := do
  guard ('.' ∈ cs)
  let d ← Decimal.read? cs
  ofDouble? (Decimal.toBinary .double { d with negative })

theorem Literal.read?_positionalChars (a : Literal) :
    read? (Decimal.ofBinary a.value).negative
      (Decimal.positionalChars true (Decimal.ofBinary a.value).digits
        (Decimal.ofBinary a.value).exponent) = some a := by
  have hd := Decimal.toBinary_ofBinary a.isFinite
  generalize Decimal.ofBinary a.value = d at *
  obtain ⟨negative, digits, exponent⟩ := d
  obtain ⟨d', hread, hnegative, hvalue⟩ :=
    Decimal.exists_read?_positionalChars ⟨false, digits, exponent⟩
  have hpoint : '.' ∈ Decimal.positionalChars true digits exponent := by
    rw [Decimal.positionalChars_eq]
    simp
  have hbinary : Decimal.toBinary .double { d' with negative } = a.value := by
    rw [← hd]
    refine Decimal.toBinary_congr (d := ⟨negative, d'.digits, d'.exponent⟩) rfl ?_
    have hmagnitude : (d'.digits : ℚ) * 10 ^ d'.exponent = digits * 10 ^ exponent := by
      simpa [Decimal.toRat, Binary.signed, hnegative] using hvalue
    rw [Decimal.toRat, Decimal.toRat, hmagnitude]
  simp only [Decimal.signChars, Bool.false_eq_true, if_false, List.nil_append] at hread
  rw [read?, hread]
  simp only [hpoint, guard_true, Option.bind_eq_bind, Option.bind_some, hbinary]
  exact ofDouble?_eq_some_iff.mpr rfl

/-! ## The machine -/

/-- What an unfinished expression waits for: a parenthesis, the rest of a call, the right side of an
operator, or the two branches of a selection. -/
inductive Frame where
  | group
  | call (type : ValueType) (arguments : List Expr)
  | operand (op : Operator) (left : Expr)
  | yes (condition : Expr)
  | no (condition yes : Expr)

inductive Phase where
  | start
  | negated
  | callee (type : ValueType)
  | done (e : Expr)

structure State where
  stack : List Frame
  phase : Phase

/-- Completes the frames that bind at least as tightly as the level. -/
def reduce (level : Nat) : Expr → List Frame → Expr × List Frame
  | e, .operand op left :: stack =>
    if level ≤ op.level then reduce level (op.apply left e) stack
    else (e, .operand op left :: stack)
  | e, .no condition yes :: stack =>
    if level = 0 then reduce level (.select condition yes e) stack
    else (e, .no condition yes :: stack)
  | e, stack => (e, stack)

def construct? : ValueType → List Expr → Option Expr
  | .vec2, [x, y] => some (.vec2 x y)
  | .vec4, [x, y, z, w] => some (.vec4 x y z w)
  | .vec4, [xy, z, w] => some (.extend xy z w)
  | _, _ => none

/-- A mark after an expression. A selection takes the branch after its colon as far as it goes. -/
def State.resume (m : Mark) (e : Expr) (stack : List Frame) : Option State :=
  match m with
  | .rightParen =>
    match reduce 0 e stack with
    | (e, .group :: stack) => some ⟨stack, .done e⟩
    | (e, .call type arguments :: stack) =>
      (construct? type (arguments ++ [e])).map fun e => ⟨stack, .done e⟩
    | _ => none
  | .comma =>
    match reduce 0 e stack with
    | (e, .call type arguments :: stack) => some ⟨.call type (arguments ++ [e]) :: stack, .start⟩
    | _ => none
  | .question =>
    let (condition, stack) := reduce 1 e stack
    some ⟨.yes condition :: stack, .start⟩
  | .colon =>
    match reduce 0 e stack with
    | (e, .yes condition :: stack) => some ⟨.no condition e :: stack, .start⟩
    | _ => none
  | m => do
    let op ← Operator.ofMark? m
    let (left, stack) := reduce op.level e stack
    return ⟨.operand op left :: stack, .start⟩

def State.step (t : Token) : State → Option State
  | ⟨stack, .start⟩ =>
    match t with
    | .word n =>
      match ValueType.ofName? n with
      | some type => some ⟨stack, .callee type⟩
      | none => some ⟨stack, .done (.name n)⟩
    | .number cs => (Literal.read? false cs).map fun a => ⟨stack, .done (.literal a)⟩
    | .mark .leftParen => some ⟨.group :: stack, .start⟩
    | .mark .minus => some ⟨stack, .negated⟩
    | _ => none
  | ⟨stack, .negated⟩ =>
    match t with
    | .number cs => (Literal.read? true cs).map fun a => ⟨stack, .done (.literal a)⟩
    | _ => none
  | ⟨stack, .callee type⟩ =>
    match t with
    | .mark .leftParen => some ⟨.call type [] :: stack, .start⟩
    | _ => none
  | ⟨stack, .done e⟩ =>
    match t with
    | .mark m => State.resume m e stack
    | _ => none

def State.run (ts : List Token) (s : State) : Option State := ts.foldlM (fun s t => s.step t) s

def Expr.read? (ts : List Token) : Option Expr := do
  match ← State.run ts ⟨[], .start⟩ with
  | ⟨stack, .done e⟩ =>
    match reduce 0 e stack with
    | (e, []) => some e
    | _ => none
  | _ => none

/-! ## Steps and runs -/

namespace State

theorem run_append (ts us : List Token) (s : State) :
    run (ts ++ us) s = (run ts s).bind (run us) := by
  rw [run, List.foldlM_append]
  rfl

theorem run_cons (t : Token) (ts : List Token) (s : State) :
    run (t :: ts) s = (step t s).bind (run ts) := by
  rw [run, List.foldlM_cons]
  rfl

@[simp] theorem run_nil (s : State) : run [] s = some s := rfl

@[simp] theorem step_leftParen (stack : List Frame) :
    step (.mark .leftParen) ⟨stack, .start⟩ = some ⟨.group :: stack, .start⟩ := rfl

theorem step_rightParen_of_group {e e' : Expr} {stack stack' : List Frame}
    (h : reduce 0 e' stack' = (e, .group :: stack)) :
    step (.mark .rightParen) ⟨stack', .done e'⟩ = some ⟨stack, .done e⟩ := by
  rw [step, resume, h]

theorem step_rightParen_of_call {e e' : Expr} {stack stack' : List Frame} {type : ValueType}
    {arguments : List Expr} (h : reduce 0 e' stack' = (e, .call type arguments :: stack)) :
    step (.mark .rightParen) ⟨stack', .done e'⟩ =
      (construct? type (arguments ++ [e])).map fun e => ⟨stack, .done e⟩ := by
  rw [step, resume, h]

theorem step_comma {e e' : Expr} {stack stack' : List Frame} {type : ValueType}
    {arguments : List Expr} (h : reduce 0 e' stack' = (e, .call type arguments :: stack)) :
    step (.mark .comma) ⟨stack', .done e'⟩ =
      some ⟨.call type (arguments ++ [e]) :: stack, .start⟩ := by
  rw [step, resume, h]

theorem step_question {e e' : Expr} {stack stack' : List Frame}
    (h : reduce 1 e' stack' = (e, stack)) :
    step (.mark .question) ⟨stack', .done e'⟩ = some ⟨.yes e :: stack, .start⟩ := by
  rw [step, resume, h]

theorem step_colon {c e e' : Expr} {stack stack' : List Frame}
    (h : reduce 0 e' stack' = (e, .yes c :: stack)) :
    step (.mark .colon) ⟨stack', .done e'⟩ = some ⟨.no c e :: stack, .start⟩ := by
  rw [step, resume, h]

theorem step_operator {op : Operator} {e e' : Expr} {stack stack' : List Frame}
    (h : reduce op.level e' stack' = (e, stack)) :
    step (.mark op.mark) ⟨stack', .done e'⟩ = some ⟨.operand op e :: stack, .start⟩ := by
  have hresume : resume op.mark e' stack' = (do
      let op ← Operator.ofMark? op.mark
      let (left, stack) := reduce op.level e' stack'
      return ⟨.operand op left :: stack, .start⟩) := by
    cases op <;> rfl
  rw [step, hresume, Operator.ofMark?_mark]
  simp [h]

end State

/-- The frame on top is not completed at the level. -/
def Stops (level : Nat) : List Frame → Prop
  | .operand op _ :: _ => op.level < level
  | .no _ _ :: _ => 0 < level
  | _ => True

theorem Stops.mono {l l' : Nat} {stack : List Frame} (h : Stops l stack) (hl : l ≤ l') :
    Stops l' stack := by
  unfold Stops at *
  split <;> first | trivial | exact lt_of_lt_of_le h hl

theorem reduce_of_stops {l : Nat} {stack : List Frame} (h : Stops l stack) (e : Expr) :
    reduce l e stack = (e, stack) := by
  cases stack with
  | nil => rfl
  | cons frame stack =>
    cases frame with
    | operand op left => exact if_neg (Nat.not_le.mpr h)
    | no condition yes => exact if_neg (Nat.ne_of_gt h)
    | group => rfl
    | call type arguments => rfl
    | yes condition => rfl

/-- From a fitting place the pieces are read as the expression, up to the frames that it still has
to complete. Those are completed alike at every level up to that of the place. -/
def Parses (ps : List Piece) (level : Nat) (e : Expr) : Prop :=
  ∀ stack, Stops (max level 1) stack → ∃ e' stack',
    State.run (tokens ps) ⟨stack, .start⟩ = some ⟨stack', .done e'⟩ ∧
      ∀ k ≤ level, reduce k e' stack' = reduce k e stack

section Parses
variable {ps qs rs : List Piece} {level : Nat} {a b c e : Expr}

theorem Parses.mono {l : Nat} (h : Parses ps level e) (hl : l ≤ level) : Parses ps l e := by
  intro stack hstack
  obtain ⟨e', stack', hrun, hreduce⟩ := h stack (hstack.mono (by omega))
  exact ⟨e', stack', hrun, fun k hk => hreduce k (hk.trans hl)⟩

theorem parses_of_run (h : ∀ stack, State.run (tokens ps) ⟨stack, .start⟩ = some ⟨stack, .done e⟩)
    (level : Nat) : Parses ps level e :=
  fun stack _ => ⟨e, stack, h stack, fun _ _ => rfl⟩

theorem Parses.parenthesized (h : Parses ps 0 e) (level : Nat) :
    Parses (parenthesized ps) level e := by
  apply parses_of_run
  intro stack
  obtain ⟨e', stack', hrun, hreduce⟩ := h (.group :: stack) trivial
  rw [Glsl.parenthesized, tokens_mark, State.run_cons, State.step_leftParen, Option.bind_some,
    tokens_append, State.run_append, hrun, Option.bind_some, tokens_mark, tokens_nil,
    State.run_cons, State.step_rightParen_of_group (hreduce 0 le_rfl)]
  rfl

theorem Parses.wrapIf {l : Nat} (h : Parses ps l e) (level : Nat) :
    Parses (Expr.wrapIf (l < level) ps) level e := by
  unfold Expr.wrapIf
  split
  · exact (h.mono (Nat.zero_le l)).parenthesized level
  · next hlevel => exact h.mono (by simpa using hlevel)

theorem Parses.operator (op : Operator) (ha : Parses ps op.level a)
    (hb : Parses qs (op.level + 1) b) :
    Parses (ps ++ spaced op.mark ++ qs) op.level (op.apply a b) := by
  intro stack hstack
  have hpos := op.level_pos
  have hstops : Stops op.level stack := hstack.mono (by omega)
  obtain ⟨a', stack', hrun, hreduce⟩ := ha stack hstack
  have hleft := (hreduce op.level le_rfl).trans (reduce_of_stops hstops a)
  obtain ⟨b', stack'', hrun', hreduce'⟩ :=
    hb (.operand op a :: stack) (show op.level < _ by omega)
  refine ⟨b', stack'', ?_, fun k hk => ?_⟩
  · rw [tokens_append, tokens_append, spaced, tokens_space, tokens_mark, tokens_space, tokens_nil,
      State.run_append, State.run_append, hrun, Option.bind_some, State.run_cons,
      State.step_operator hleft, Option.bind_some, State.run_nil, Option.bind_some, hrun']
  · rw [hreduce' k (by omega), reduce, if_pos hk]

theorem Parses.select (hc : Parses ps 1 c) (ha : Parses qs 0 a) (hb : Parses rs 0 b) :
    Parses (ps ++ spaced .question ++ qs ++ spaced .colon ++ rs) 0 (.select c a b) := by
  intro stack hstack
  obtain ⟨c', stack₁, hrun₁, hreduce₁⟩ := hc stack hstack
  have hcondition := (hreduce₁ 1 le_rfl).trans (reduce_of_stops hstack c)
  obtain ⟨a', stack₂, hrun₂, hreduce₂⟩ := ha (.yes c :: stack) trivial
  obtain ⟨b', stack₃, hrun₃, hreduce₃⟩ := hb (.no c a :: stack) (show 0 < _ by omega)
  refine ⟨b', stack₃, ?_, fun k hk => ?_⟩
  · simp only [spaced, tokens_append, tokens_space, tokens_mark, tokens_nil, State.run_append,
      State.run_cons, State.run_nil, hrun₁, hrun₂, hrun₃, Option.bind_some,
      State.step_question hcondition, State.step_colon (hreduce₂ 0 le_rfl)]
  · obtain rfl : k = 0 := by omega
    rw [hreduce₃ 0 le_rfl, reduce, if_pos rfl]

/-- The arguments of a call that has read some of them. -/
theorem run_arguments {pss : List (List Piece)} {es : List Expr}
    (h : List.Forall₂ (fun ps e => Parses ps 0 e) pss es) (hne : pss ≠ []) (type : ValueType)
    (arguments : List Expr) (stack : List Frame) :
    State.run (tokens ([.mark .comma, .space].intercalate pss) ++ [.mark .rightParen])
      ⟨.call type arguments :: stack, .start⟩ =
        (construct? type (arguments ++ es)).map fun e => ⟨stack, .done e⟩ := by
  induction h generalizing arguments with
  | nil => exact absurd rfl hne
  | @cons ps e pss es hps hpss ih =>
    obtain ⟨e', stack', hrun, hreduce⟩ := hps (.call type arguments :: stack) trivial
    cases hpss with
    | nil =>
      rw [List.intercalate_singleton, State.run_append, hrun, Option.bind_some, State.run_cons,
        State.step_rightParen_of_call (hreduce 0 le_rfl)]
      cases construct? type (arguments ++ [e]) <;> rfl
    | cons =>
      rw [List.intercalate_cons_cons, tokens_append, tokens_append, tokens_mark, tokens_space,
        tokens_nil, List.append_assoc, List.append_assoc, State.run_append, hrun, Option.bind_some,
        List.cons_append, List.nil_append, State.run_cons,
        State.step_comma (hreduce 0 le_rfl), Option.bind_some, ih (by simp), List.append_assoc]
      rfl

theorem parses_call {pss : List (List Piece)} {es : List Expr}
    (h : List.Forall₂ (fun ps e => Parses ps 0 e) pss es) (hne : pss ≠ []) {type : ValueType}
    (he : construct? type es = some e) (level : Nat) : Parses (Expr.call type pss) level e := by
  apply parses_of_run
  intro stack
  have hrun := run_arguments h hne type [] stack
  rw [List.nil_append, he] at hrun
  have hcallee : State.step (.word type.name) ⟨stack, .start⟩ = some ⟨stack, .callee type⟩ := by
    rw [State.step, ValueType.ofName?_name]
  rw [Expr.call, Glsl.parenthesized, tokens_word, tokens_mark, tokens_append, tokens_mark,
    tokens_nil, State.run_cons, hcallee, Option.bind_some, State.run_cons]
  exact hrun

theorem parses_name {n : String} (h : ValueType.ofName? n = none) (level : Nat) :
    Parses [.word n] level (.name n) := by
  apply parses_of_run
  intro stack
  rw [tokens_word, tokens_nil, State.run_cons, State.step, h]
  rfl

theorem parses_literal (a : Literal) (level : Nat) : Parses a.pieces level (.literal a) := by
  have hread := a.read?_positionalChars
  apply parses_of_run
  intro stack
  rw [Literal.pieces_eq]
  generalize Decimal.ofBinary a.value = d at *
  obtain ⟨negative, digits, exponent⟩ := d
  have hnumber (phase : Phase) (hphase : phase = if negative then .negated else .start) :
      State.step (.number (Decimal.positionalChars true digits exponent)) ⟨stack, phase⟩ =
        some ⟨stack, .done (.literal a)⟩ := by
    subst hphase
    cases negative <;> exact congrArg (Option.map _) hread
  cases negative with
  | false =>
    have hrun : State.run [.number (Decimal.positionalChars true digits exponent)]
        ⟨stack, .start⟩ = some ⟨stack, .done (.literal a)⟩ := by
      rw [State.run_cons, hnumber .start rfl]
      rfl
    exact hrun
  | true =>
    have hrun : State.run [.mark .minus, .number (Decimal.positionalChars true digits exponent)]
        ⟨stack, .start⟩ = some ⟨stack, .done (.literal a)⟩ := by
      have hminus : State.step (.mark .minus) ⟨stack, .start⟩ = some ⟨stack, .negated⟩ := rfl
      rw [State.run_cons, hminus, Option.bind_some, State.run_cons, hnumber .negated rfl]
      rfl
    exact hrun

end Parses

/-! ## Written expressions -/

def Expr.names : Expr → List String
  | literal _ => []
  | name n => [n]
  | vec2 x y => x.names ++ y.names
  | vec4 x y z w => x.names ++ y.names ++ z.names ++ w.names
  | extend xy z w => xy.names ++ z.names ++ w.names
  | mul a b | add a b | equal a b | or a b => a.names ++ b.names
  | select c a b => c.names ++ a.names ++ b.names

/-- A name that no type has. -/
def isIdentifier (name : String) : Bool := isName name && (ValueType.ofName? name).isNone

theorem isName_of_isIdentifier {n : String} (h : isIdentifier n) : isName n := by
  simp only [isIdentifier, Bool.and_eq_true] at h
  exact h.1

theorem ofName?_of_isIdentifier {n : String} (h : isIdentifier n) :
    ValueType.ofName? n = none := by
  simp only [isIdentifier, Bool.and_eq_true, Option.isNone_iff_eq_none] at h
  exact h.2

theorem parses_pieces {e : Expr} (h : ∀ n ∈ e.names, isIdentifier n) (level : Nat) :
    Parses (e.pieces level) level e := by
  induction e generalizing level with
  | literal a => exact parses_literal a level
  | name n => exact parses_name (ofName?_of_isIdentifier (h n (by simp [Expr.names]))) level
  | vec2 x y ihx ihy =>
    simp only [Expr.names, List.forall_mem_append] at h
    exact parses_call (.cons (ihx h.1 0) (.cons (ihy h.2 0) .nil)) (by simp) rfl level
  | vec4 x y z w ihx ihy ihz ihw =>
    simp only [Expr.names, List.forall_mem_append] at h
    obtain ⟨⟨⟨hx, hy⟩, hz⟩, hw⟩ := h
    exact parses_call (.cons (ihx hx 0) (.cons (ihy hy 0) (.cons (ihz hz 0)
      (.cons (ihw hw 0) .nil)))) (by simp) rfl level
  | extend xy z w ihxy ihz ihw =>
    simp only [Expr.names, List.forall_mem_append] at h
    obtain ⟨⟨hxy, hz⟩, hw⟩ := h
    exact parses_call (.cons (ihxy hxy 0) (.cons (ihz hz 0) (.cons (ihw hw 0) .nil)))
      (by simp) rfl level
  | mul a b iha ihb =>
    simp only [Expr.names, List.forall_mem_append] at h
    exact ((iha h.1 4).operator .mul (ihb h.2 5)).wrapIf level
  | add a b iha ihb =>
    simp only [Expr.names, List.forall_mem_append] at h
    exact ((iha h.1 3).operator .add (ihb h.2 4)).wrapIf level
  | equal a b iha ihb =>
    simp only [Expr.names, List.forall_mem_append] at h
    exact ((iha h.1 2).operator .equal (ihb h.2 3)).wrapIf level
  | or a b iha ihb =>
    simp only [Expr.names, List.forall_mem_append] at h
    exact ((iha h.1 1).operator .or (ihb h.2 2)).wrapIf level
  | select c a b ihc iha ihb =>
    simp only [Expr.names, List.forall_mem_append] at h
    obtain ⟨⟨hc, ha⟩, hb⟩ := h
    exact ((ihc hc 1).select (iha ha 0) (ihb hb 0)).wrapIf level

/-- Reading a written expression gives it back. -/
theorem Expr.read?_pieces {e : Expr} (h : ∀ n ∈ e.names, isIdentifier n) :
    read? (tokens (e.pieces 0)) = some e := by
  obtain ⟨e', stack, hrun, hreduce⟩ := parses_pieces h 0 [] trivial
  rw [read?, hrun]
  simp only [Option.bind_eq_bind, Option.bind_some, hreduce 0 le_rfl, reduce]

theorem State.semicolon_not_mem_of_run {ts : List Token} {s s' : State} (h : run ts s = some s') :
    .mark .semicolon ∉ ts := by
  induction ts generalizing s with
  | nil => simp
  | cons t ts ih =>
    rw [run_cons, Option.bind_eq_some_iff] at h
    obtain ⟨s₁, hstep, hrun⟩ := h
    have ht : .mark .semicolon ≠ t := by
      rintro rfl
      obtain ⟨stack, phase⟩ := s
      cases phase <;> cases hstep
    simp [ht, ih hrun]

/-- An expression ends where its statement does. -/
theorem Expr.semicolon_not_mem_of_read? {ts : List Token} {e : Expr} (h : read? ts = some e) :
    .mark .semicolon ∉ ts := by
  rw [read?, Option.bind_eq_bind, Option.bind_eq_some_iff] at h
  obtain ⟨s, hrun, -⟩ := h
  exact State.semicolon_not_mem_of_run hrun

theorem isName_valueType (t : ValueType) : isName t.name := by
  cases t <;> decide

theorem scans_number_positional (digits : Nat) (e : Int) :
    Scans [.token (.number (Decimal.positionalChars true digits e))] := by
  have hne : Nat.toDigits 10 (Decimal.positionalWhole digits e) ≠ [] := Nat.toDigits_ne_nil
  have hdigit : ∀ c ∈ Nat.toDigits 10 (Decimal.positionalWhole digits e), c.isDigit :=
    fun c => Decimal.isDigit_of_mem_toDigits
  rw [Decimal.positionalChars_eq]
  apply scans_number
  · cases hwhole : Nat.toDigits 10 (Decimal.positionalWhole digits e) with
    | nil => exact absurd hwhole hne
    | cons c cs => simpa using hdigit c (by simp [hwhole])
  · intro c hc
    simp only [List.mem_append, List.mem_cons] at hc
    rcases hc with hc | rfl | hc
    · exact .inl (hdigit c hc)
    · exact .inr rfl
    · exact .inl (Decimal.isDigit_of_mem_positionalFraction hc)

theorem scans_literal (a : Literal) : Scans a.pieces := by
  have hnumber := scans_number_positional (Decimal.ofBinary a.value).digits
    (Decimal.ofBinary a.value).exponent
  rw [Literal.pieces_eq]
  cases (Decimal.ofBinary a.value).negative with
  | false => exact hnumber
  | true => exact hnumber.soft_append (p := .mark .minus) rfl

theorem scans_call {pss : List (List Piece)} (h : ∀ ps ∈ pss, Scans ps) (t : ValueType) :
    Scans (Expr.call t pss) :=
  (scans_word (isName_valueType t)).append_soft rfl ((Scans.intercalate h).append_singleton rfl)

theorem Scans.wrapIf {ps : List Piece} (h : Scans ps) (needed : Bool) :
    Scans (Expr.wrapIf needed ps) := by
  unfold Expr.wrapIf
  split
  · exact h.parenthesized
  · exact h

theorem scans_pieces {e : Expr} (h : ∀ n ∈ e.names, isIdentifier n) (level : Nat) :
    Scans (e.pieces level) := by
  induction e generalizing level with
  | literal a => exact scans_literal a
  | name n => exact scans_word (isName_of_isIdentifier (h n (by simp [Expr.names])))
  | vec2 x y ihx ihy =>
    simp only [Expr.names, List.forall_mem_append] at h
    exact scans_call (by simp [ihx h.1, ihy h.2]) .vec2
  | vec4 x y z w ihx ihy ihz ihw =>
    simp only [Expr.names, List.forall_mem_append] at h
    obtain ⟨⟨⟨hx, hy⟩, hz⟩, hw⟩ := h
    exact scans_call (by simp [ihx hx, ihy hy, ihz hz, ihw hw]) .vec4
  | extend xy z w ihxy ihz ihw =>
    simp only [Expr.names, List.forall_mem_append] at h
    obtain ⟨⟨hxy, hz⟩, hw⟩ := h
    exact scans_call (by simp [ihxy hxy, ihz hz, ihw hw]) .vec4
  | mul a b iha ihb | add a b iha ihb | equal a b iha ihb | or a b iha ihb =>
    simp only [Expr.names, List.forall_mem_append] at h
    exact ((iha h.1 _).spaced _ (ihb h.2 _)).wrapIf _
  | select c a b ihc iha ihb =>
    simp only [Expr.names, List.forall_mem_append] at h
    obtain ⟨⟨hc, ha⟩, hb⟩ := h
    exact ((((ihc hc 1).spaced .question (iha ha 0)).spaced .colon (ihb hb 0)).wrapIf _)

end PointSymbol.Glsl
