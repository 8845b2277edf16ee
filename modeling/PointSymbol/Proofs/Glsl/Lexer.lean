import PointSymbol.Glsl.Token
import PointSymbol.Proofs.Text.Trim

/-!
# Scanning shader sources

`scan` cuts a source into tokens by longest match. A text written from pieces scans to the tokens
among them, if marks or blanks stand between its words and numbers.
-/

namespace PointSymbol.Glsl

def isNameChar (c : Char) : Bool := c.isAlphanum || c == '_'

/-- The characters that words and numbers are made of. -/
def isRunChar (c : Char) : Bool := isNameChar c || c == '.'

/-- The token of a run is a number if it starts like one, and otherwise a word. -/
def Token.ofRun? : List Char → Option Token
  | [] => none
  | c :: cs =>
    if c.isDigit || c == '.' then some (.number (c :: cs))
    else if (c :: cs).all isNameChar then some (.word (.ofList (c :: cs)))
    else none

/-- The longer marks come first. -/
def Mark.all : List Mark :=
  [equal, or, leftParen, rightParen, leftBrace, rightBrace, comma, semicolon, question, colon,
    assign, plus, minus, star]

def scan : List Char → Option (List Token)
  | [] => some []
  | c :: cs =>
    if c.isWhitespace then scan cs
    else if isRunChar c then do
      let t ← Token.ofRun? ((c :: cs).takeWhile isRunChar)
      let ts ← scan (cs.dropWhile isRunChar)
      return t :: ts
    else do
      let m ← Mark.all.find? fun m => m.chars.isPrefixOf (c :: cs)
      let ts ← scan (cs.drop (m.chars.length - 1))
      return .mark m :: ts
termination_by cs => cs.length
decreasing_by
  · simp
  · have := (List.dropWhile_sublist isRunChar (l := cs)).length_le
    simp only [List.length_cons]
    omega
  · simp only [List.length_cons, List.length_drop]
    omega

def Piece.token? : Piece → Option Token
  | token t => some t
  | space | newline => none

def tokens (ps : List Piece) : List Token := ps.filterMap Piece.token?

/-- A word or a number ends where such a text follows. -/
def Breaks (cs : List Char) : Prop := ∀ c ∈ cs.head?, isRunChar c = false

/-- The pieces scan to their tokens wherever a word or a number could end. -/
def Scans (ps : List Piece) : Prop :=
  ∀ cs, Breaks cs → scan (ps.flatMap Piece.chars ++ cs) = (scan cs).map (tokens ps ++ ·)

/-- A name starts with a letter or an underscore. -/
def isName (name : String) : Bool :=
  name.toList.all isNameChar && name.toList.head?.any fun c => !c.isDigit

/-! ## Single tokens -/

theorem scan_blank {c : Char} (h : c.isWhitespace) (cs : List Char) : scan (c :: cs) = scan cs := by
  rw [scan, if_pos h]

theorem not_isWhitespace_of_isRunChar {c : Char} (h : isRunChar c) : c.isWhitespace = false := by
  rw [← Bool.not_eq_true]
  intro hc
  simp only [Char.isWhitespace, Bool.or_eq_true, decide_eq_true_eq] at hc
  rcases hc with ((rfl | rfl) | rfl) | rfl <;> cases h

theorem scan_run {run cs : List Char} {t : Token} (hrun : ∀ c ∈ run, isRunChar c)
    (ht : Token.ofRun? run = some t) (hcs : Breaks cs) :
    scan (run ++ cs) = (scan cs).map (t :: ·) := by
  cases run with
  | nil => cases ht
  | cons c run =>
    have hc := hrun c (by simp)
    have htail : ∀ d ∈ run, isRunChar d := fun d hd => hrun d (by simp [hd])
    rw [List.cons_append, scan, not_isWhitespace_of_isRunChar hc, if_neg Bool.false_ne_true,
      if_pos hc, ← List.cons_append, Text.takeWhile_append_of_head hrun hcs, ht,
      Text.dropWhile_append_of_head htail hcs]
    cases scan cs <;> rfl

theorem scan_of_find? {c : Char} {cs : List Char} {m : Mark} (hblank : c.isWhitespace = false)
    (hrun : isRunChar c = false)
    (hm : (Mark.all.find? fun m => m.chars.isPrefixOf (c :: cs)) = some m) :
    scan (c :: cs) = (scan (cs.drop (m.chars.length - 1))).map (.mark m :: ·) := by
  rw [scan, hblank, hrun, hm]
  simp only [Bool.false_eq_true, if_false, Option.bind_eq_bind, Option.bind_some]
  cases scan (cs.drop (m.chars.length - 1)) <;> rfl

/-- Only the single equals sign depends on what follows it. -/
theorem scan_mark {m : Mark} (h : m ≠ .assign) (cs : List Char) :
    scan (m.chars ++ cs) = (scan cs).map (.mark m :: ·) := by
  cases m with
  | assign => exact absurd rfl h
  | _ => exact scan_of_find? (by decide) (by decide) rfl

theorem scan_assign (cs : List Char) :
    scan ('=' :: ' ' :: cs) = (scan cs).map (.mark .assign :: ·) := by
  rw [scan_of_find? (m := .assign) (by decide) (by decide) rfl]
  exact congrArg _ (scan_blank (by decide) cs)

/-! ## Pieces -/

/-- A piece that ends words and numbers and scans alike before every text. -/
def Piece.isSoft : Piece → Bool
  | token (.mark m) => m != .assign
  | token _ => false
  | space | newline => true

section Soft
variable {p : Piece} {ps qs : List Piece}

@[simp] theorem tokens_nil : tokens [] = [] := rfl

@[simp] theorem tokens_word (name : String) (ps : List Piece) :
    tokens (.word name :: ps) = .word name :: tokens ps := rfl

@[simp] theorem tokens_mark (m : Mark) (ps : List Piece) :
    tokens (.mark m :: ps) = .mark m :: tokens ps := rfl

@[simp] theorem tokens_space (ps : List Piece) : tokens (.space :: ps) = tokens ps := rfl

@[simp] theorem tokens_newline (ps : List Piece) : tokens (.newline :: ps) = tokens ps := rfl

@[simp] theorem tokens_append (ps qs : List Piece) : tokens (ps ++ qs) = tokens ps ++ tokens qs :=
  List.filterMap_append

@[simp] theorem tokens_line (ps : List Piece) : tokens (line ps) = tokens ps := by
  simp [line]

theorem tokens_cons (p : Piece) (ps : List Piece) : tokens (p :: ps) = tokens [p] ++ tokens ps :=
  tokens_append [p] ps

theorem scan_soft (h : p.isSoft) (cs : List Char) :
    scan (p.chars ++ cs) = (scan cs).map (tokens [p] ++ ·) := by
  cases p with
  | token t =>
    cases t with
    | mark m => exact scan_mark (by simpa [Piece.isSoft] using h) cs
    | word name => cases h
    | number digits => cases h
  | space => simp [Piece.chars, scan_blank]
  | newline => simp [Piece.chars, scan_blank]

theorem breaks_soft (h : p.isSoft) (cs : List Char) : Breaks (p.chars ++ cs) := by
  cases p with
  | token t =>
    cases t with
    | mark m => cases m <;> simpa [Breaks, Piece.chars, Token.chars, Mark.chars] using by decide
    | word name => cases h
    | number digits => cases h
  | space => simpa [Breaks, Piece.chars] using by decide
  | newline => simpa [Breaks, Piece.chars] using by decide

theorem scans_nil : Scans [] := by
  intro cs _
  simp

theorem Scans.append_soft (hps : Scans ps) (hp : p.isSoft) (hqs : Scans qs) :
    Scans (ps ++ p :: qs) := by
  intro cs hcs
  rw [List.flatMap_append, List.flatMap_cons, List.append_assoc, List.append_assoc,
    hps _ (breaks_soft hp _), scan_soft hp, hqs cs hcs]
  simp [tokens_cons p qs, Function.comp_def]

theorem scans_run {run : List Char} {t : Token} (hchars : t.chars = run)
    (hrun : ∀ c ∈ run, isRunChar c) (ht : Token.ofRun? run = some t) : Scans [.token t] := by
  intro cs hcs
  simp only [List.flatMap_cons, List.flatMap_nil, List.append_nil, Piece.chars, hchars]
  exact scan_run hrun ht hcs

theorem ofRun?_of_isDigit {c : Char} (h : c.isDigit) (cs : List Char) :
    Token.ofRun? (c :: cs) = some (.number (c :: cs)) := by
  simp [Token.ofRun?, h]

theorem ofRun?_of_isName {name : String} (h : isName name) :
    Token.ofRun? name.toList = some (.word name) := by
  simp only [isName, Bool.and_eq_true] at h
  obtain ⟨hall, hhead⟩ := h
  have hname := String.ofList_toList (s := name)
  generalize name.toList = run at *
  cases run with
  | nil => cases hhead
  | cons c cs =>
    have hdigit : c.isDigit = false := by simpa using hhead
    have hpoint : c ≠ '.' := by
      rintro rfl
      simp [isNameChar] at hall
    simp only [Token.ofRun?, hall, hdigit, hname]
    simp [hpoint]

theorem scans_word {name : String} (h : isName name) : Scans [.word name] := by
  refine scans_run rfl (fun c hc => ?_) (ofRun?_of_isName h)
  simp only [isName, Bool.and_eq_true, List.all_eq_true] at h
  simp [isRunChar, h.1 c hc]

theorem scans_number {digits : List Char} (hhead : digits.head?.any Char.isDigit)
    (h : ∀ c ∈ digits, c.isDigit ∨ c = '.') : Scans [.token (.number digits)] := by
  refine scans_run rfl (fun c hc => ?_) ?_
  · rcases h c hc with hdigit | rfl
    · simp [isRunChar, isNameChar, Char.isAlphanum, hdigit]
    · rfl
  · cases digits with
    | nil => cases hhead
    | cons c cs =>
      exact ofRun?_of_isDigit (by simpa using hhead) cs

theorem Scans.soft_append (hp : p.isSoft) (hqs : Scans qs) : Scans (p :: qs) :=
  scans_nil.append_soft hp hqs

theorem Scans.append_singleton (hps : Scans ps) (hp : p.isSoft) : Scans (ps ++ [p]) :=
  hps.append_soft hp scans_nil

theorem Scans.parenthesized (hps : Scans ps) : Scans (parenthesized ps) :=
  (hps.append_singleton rfl).soft_append rfl

theorem Scans.mark_space (m : Mark) (hqs : Scans qs) : Scans (.mark m :: .space :: qs) := by
  by_cases hm : m = .assign
  · subst hm
    intro cs hcs
    have hscan := scan_assign (qs.flatMap Piece.chars ++ cs)
    rw [hqs cs hcs, Option.map_map] at hscan
    exact hscan
  · have hsoft : (Piece.mark m).isSoft := by simpa [Piece.isSoft, Piece.mark] using hm
    exact (hqs.soft_append rfl).soft_append hsoft

theorem Scans.spaced (m : Mark) (hps : Scans ps) (hqs : Scans qs) :
    Scans (ps ++ spaced m ++ qs) := by
  rw [List.append_assoc]
  exact hps.append_soft rfl (hqs.mark_space m)

theorem Scans.intercalate {pss : List (List Piece)} (h : ∀ ps ∈ pss, Scans ps) :
    Scans ([.mark .comma, .space].intercalate pss) := by
  induction pss with
  | nil => exact scans_nil
  | cons ps pss ih =>
    have hps := h ps (by simp)
    cases pss with
    | nil => simpa using hps
    | cons qs pss =>
      rw [List.intercalate_cons_cons, List.append_assoc]
      exact hps.append_soft rfl ((ih fun qs hqs => h qs (by simp [hqs])).soft_append rfl)

/-- A source scans to the tokens that it was written from. -/
theorem scan_write (h : Scans ps) : scan (write ps).toList = some (tokens ps) := by
  have hscan := h [] (by simp [Breaks])
  rw [scan, Option.map_some, List.append_nil, List.append_nil] at hscan
  rw [write, String.toList_ofList, hscan]

end Soft

/-! ## Closed runs of pieces -/

/-- Anything that scans on its own scans after the pieces. -/
def Closes (ps : List Piece) : Prop := ∀ qs, Scans qs → Scans (ps ++ qs)

section Closes
variable {ps qs : List Piece}

theorem closes_nil : Closes [] := fun _ hqs => hqs

theorem Closes.append (hps : Closes ps) (hqs : Closes qs) : Closes (ps ++ qs) := by
  intro rs hrs
  rw [List.append_assoc]
  exact hps _ (hqs rs hrs)

theorem closes_soft {p : Piece} (hp : p.isSoft) : Closes [p] := fun _ hqs => hqs.soft_append hp

theorem Scans.closes_line (hps : Scans ps) : Closes (line ps) := by
  intro qs hqs
  rw [line, List.append_assoc]
  exact hps.append_soft rfl hqs

theorem closes_flatMap {α : Type} {as : List α} {f : α → List Piece} (h : ∀ a ∈ as, Closes (f a)) :
    Closes (as.flatMap f) := by
  induction as with
  | nil => exact closes_nil
  | cons a as ih =>
    rw [List.flatMap_cons]
    exact (h a (by simp)).append (ih fun b hb => h b (by simp [hb]))

theorem Closes.scans (h : Closes ps) : Scans ps := by
  simpa using h [] scans_nil

end Closes

end PointSymbol.Glsl
