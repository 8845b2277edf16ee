import Mathlib.Logic.Relation
import PointSymbol.Proofs.Color.Faults
import PointSymbol.Proofs.Text.Spelling

/-!
# Spellings of colors

Blanks around a color text and around its components, the case of its letters and the choice between
the two function names carry no meaning. Texts that differ in nothing else name one color, or are at
fault alike.
-/

namespace PointSymbol.Color
open Relation (EqvGen)
open Text (Blank Padded Recased Tight)

/-- One change of spelling. -/
inductive Respells : List Char → List Char → Prop
  | pad {cs ds : List Char} (h : Padded cs ds) : Respells cs ds
  | recase {cs ds : List Char} (h : Recased cs ds) : Respells cs ds
  | rename {cs ds args : List Char} (hcs : Arguments args cs) (hds : Arguments args ds) :
      Respells cs ds
  | padComponents {cs ds : List Char} {parts parts' : List (List Char)}
      (hcs : Arguments ([','].intercalate parts) cs)
      (hds : Arguments ([','].intercalate parts') ds) (hcomma : ∀ part ∈ parts, ',' ∉ part)
      (hparts : List.Forall₂ Padded parts parts') : Respells cs ds

variable {cs ds args args' : List Char} {parts parts' : List (List Char)}

/-! ## Arguments -/

theorem Arguments.map_toLower (h : Arguments args cs) :
    Arguments (args.map Char.toLower) (cs.map Char.toLower) := by
  obtain ⟨hname, hblanks⟩ := h
  simp only [List.map_append, List.map_cons]
  refine .mk ?_ (Text.blank_map_toLower hblanks)
  rcases hname with rfl | rfl
  · exact .inl rfl
  · exact .inr rfl

theorem Arguments.read_eq (h : Arguments args cs) :
    Rgba.read ((Text.trim cs).map Char.toLower) = Rgba.readComponents (args.map Char.toLower) := by
  rw [Text.trim_eq_self h.tight]
  exact read_of_arguments h.map_toLower

/-! ## Components -/

theorem splitOn_map_toLower (cs : List Char) :
    (cs.map Char.toLower).splitOn ',' = (cs.splitOn ',').map (List.map Char.toLower) := by
  induction cs with
  | nil => rfl
  | cons c cs ih =>
    have hcomma : (c.toLower == ',') = (c == ',') := by
      rw [Bool.eq_iff_iff, beq_iff_eq, beq_iff_eq, Text.toLower_eq_iff_of_lt (by decide)]
    rw [List.map_cons, List.splitOn_cons_eq_if_modifyHead, List.splitOn_cons_eq_if_modifyHead,
      hcomma, ih]
    split
    · rfl
    · cases cs.splitOn ',' <;> rfl

/-- The components are read without the blanks around them. -/
theorem readComponents_map_toLower_congr
    (h : (args.splitOn ',').map Text.trim = (args'.splitOn ',').map Text.trim) :
    Rgba.readComponents (args.map Char.toLower) = Rgba.readComponents (args'.map Char.toLower) := by
  have htrim (cs : List Char) : ((cs.map Char.toLower).splitOn ',').map Text.trim =
      ((cs.splitOn ',').map Text.trim).map (List.map Char.toLower) := by
    simp only [splitOn_map_toLower, List.map_map]
    exact List.map_congr_left fun part _ => Text.trim_map_toLower part
  rw [Rgba.readComponents, Rgba.readComponents, htrim, htrim, h]

theorem map_trim_eq (h : List.Forall₂ Padded parts parts') :
    parts'.map Text.trim = parts.map Text.trim := by
  induction h with
  | nil => rfl
  | cons hpart _ ih => rw [List.map_cons, List.map_cons, hpart.trim_eq, ih]

theorem comma_not_mem_of_padded {part part' : List Char} (h : Padded part part')
    (hcomma : ',' ∉ part) : ',' ∉ part' := by
  obtain ⟨hbefore, hafter⟩ := h
  have hblank : ¬Text.isBlank ',' := by decide
  simp only [List.mem_append, not_or]
  exact ⟨⟨fun h => hblank (hbefore _ h), hcomma⟩, fun h => hblank (hafter _ h)⟩

theorem forall_comma_not_mem (hparts : List.Forall₂ Padded parts parts')
    (hcomma : ∀ part ∈ parts, ',' ∉ part) : ∀ part ∈ parts', ',' ∉ part := by
  induction hparts with
  | nil => exact hcomma
  | cons hpart _ ih =>
    obtain ⟨hfirst, hrest⟩ := List.forall_mem_cons.mp hcomma
    exact List.forall_mem_cons.mpr ⟨comma_not_mem_of_padded hpart hfirst, ih hrest⟩

theorem map_trim_splitOn_intercalate (hparts : List.Forall₂ Padded parts parts')
    (hcomma : ∀ part ∈ parts, ',' ∉ part) :
    (([','].intercalate parts).splitOn ',').map Text.trim =
      (([','].intercalate parts').splitOn ',').map Text.trim := by
  cases hparts with
  | nil => rfl
  | cons hpart hrest =>
    have hparts := List.Forall₂.cons hpart hrest
    rw [List.splitOn_intercalate ',' hcomma (List.cons_ne_nil _ _),
      List.splitOn_intercalate ',' (forall_comma_not_mem hparts hcomma) (List.cons_ne_nil _ _),
      map_trim_eq hparts]

/-! ## Texts -/

theorem Respells.read_eq (h : Respells cs ds) :
    Rgba.read ((Text.trim cs).map Char.toLower) = Rgba.read ((Text.trim ds).map Char.toLower) := by
  cases h with
  | pad h => rw [h.trim_eq]
  | recase h => rw [← Text.trim_map_toLower, ← Text.trim_map_toLower, h.map_toLower]
  | rename hcs hds => rw [hcs.read_eq, hds.read_eq]
  | padComponents hcs hds hcomma hparts =>
    rw [hcs.read_eq, hds.read_eq]
    exact readComponents_map_toLower_congr (map_trim_splitOn_intercalate hparts hcomma)

theorem read_eq_of_eqvGen (h : EqvGen Respells cs ds) :
    Rgba.read ((Text.trim cs).map Char.toLower) = Rgba.read ((Text.trim ds).map Char.toLower) := by
  induction h with
  | rel _ _ h => exact h.read_eq
  | refl => rfl
  | symm _ _ _ ih => exact ih.symm
  | trans _ _ _ _ _ ih ih' => exact ih.trans ih'

/-- Texts that differ in spelling alone name one color or have one fault, whatever the changes and
their order. -/
theorem parse_respelled (text text' : String) (h : EqvGen Respells text.toList text'.toList) :
    (∃ c, Rgba.parse text = .ok c ∧ Rgba.parse text' = .ok c) ∨
      ∃ fault, Rgba.parse text = .error ⟨fault, text⟩ ∧
        Rgba.parse text' = .error ⟨fault, text'⟩ := by
  have hread : Rgba.read (normalForm text) = Rgba.read (normalForm text') := read_eq_of_eqvGen h
  rw [Rgba.parse, Rgba.parse, ← hread]
  cases Rgba.read (normalForm text) with
  | ok c => exact .inl ⟨c, rfl, rfl⟩
  | error fault => exact .inr ⟨fault, rfl, rfl⟩

/-- The invalid component is quoted alike, however the text around it is spelled. -/
theorem parse_respelled_of_invalid :
    let text := "rgb(1,2px,3)"
    let text' := "\u2003RGBA (1, 2Px\t,3)"
    EqvGen Respells text.toList text'.toList ∧
      Rgba.parse text' = .error ⟨.invalidComponent "2px", text'⟩ := by
  intro text text'
  have hpart {core : List Char} (before after : List Char) (hbefore : before.all Text.isBlank)
      (hafter : after.all Text.isBlank) : Padded core (before ++ core ++ after) :=
    .mk (List.all_eq_true.mp hbefore) (List.all_eq_true.mp hafter)
  have htext : text.toList = ['r', 'g', 'b'] ++ [] ++
      '(' :: ([','].intercalate [['1'], ['2', 'p', 'x'], ['3']] ++ [')']) := by decide
  have hspaced : "rgba (1, 2px\t,3)".toList = ['r', 'g', 'b', 'a'] ++ [' '] ++
      '(' :: ([','].intercalate [['1'], [' ', '2', 'p', 'x', '\t'], ['3']] ++ [')']) := by decide
  have htext' : text'.toList = ['\u2003'] ++ "RGBA (1, 2Px\t,3)".toList ++ [] := by decide
  have hcomponents : Respells text.toList "rgba (1, 2px\t,3)".toList := by
    rw [htext, hspaced]
    exact .padComponents (.mk (.inl rfl) (by simp [Blank]))
      (.mk (.inr rfl) (by simp [Blank]; decide)) (by decide)
      (.cons (hpart [] [] rfl rfl) (.cons (hpart [' '] ['\t'] rfl rfl)
        (.cons (hpart [] [] rfl rfl) .nil)))
  have hcase : Respells "rgba (1, 2px\t,3)".toList "RGBA (1, 2Px\t,3)".toList :=
    .recase (by simp [Recased])
  have hpad : Respells "RGBA (1, 2Px\t,3)".toList text'.toList := by
    rw [htext']
    exact .pad (hpart ['\u2003'] [] (by decide) rfl)
  have h : EqvGen Respells text.toList text'.toList :=
    .trans _ _ _ (.rel _ _ hcomponents) (.trans _ _ _ (.rel _ _ hcase) (.rel _ _ hpad))
  have hparse : Rgba.parse text = .error ⟨.invalidComponent "2px", text⟩ := by decide +kernel
  rcases parse_respelled text text' h with ⟨c, hc, -⟩ | ⟨fault, hfault, hfault'⟩
  · rw [hparse] at hc
    cases hc
  · rw [hparse] at hfault
    cases hfault
    exact ⟨h, hfault'⟩

end PointSymbol.Color
