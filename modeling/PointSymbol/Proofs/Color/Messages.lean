import PointSymbol.Proofs.Color.Faults
import PointSymbol.Proofs.Text.Quoted
import PointSymbol.Symbol.Error

/-!
# Messages of color errors

A message quotes the rejected text before anything else that it quotes, so the text is read back
from it, and no control character of the text or of a component comes through. The same holds of the
message of the symbol error that a color error causes.
-/

namespace PointSymbol.Color
open Text (firstQuoted? isControl quotedChars)

theorem isControl_of_isDigit {c : Char} (h : c.isDigit) : isControl c = false := by
  obtain ⟨hle, hge⟩ := Text.toNat_of_isDigit h
  rw [Text.isControl_eq_false_iff]
  omega

theorem isControl_of_mem {s : String} (h : s.toList.all (!isControl ·)) :
    ∀ c ∈ s.toList, isControl c = false := by
  intro c hc
  simpa using List.all_eq_true.mp h c hc

theorem isControl_repr {n : Nat} {c : Char} (h : c ∈ n.repr.toList) : isControl c = false := by
  rw [Nat.repr, String.toList_ofList] at h
  exact isControl_of_isDigit (Nat.isDigit_of_mem_toDigits (by decide) (by decide) h)

theorem isControl_append {s t : String} (hs : ∀ c ∈ s.toList, isControl c = false)
    (ht : ∀ c ∈ t.toList, isControl c = false) : ∀ c ∈ (s ++ t).toList, isControl c = false := by
  intro c hc
  rw [String.toList_append, List.mem_append] at hc
  exact hc.elim (hs c) (ht c)

theorem isControl_quoted (s : String) : ∀ c ∈ (Text.quoted s).toList, isControl c = false := by
  intro c hc
  rw [Text.quoted, String.toList_ofList] at hc
  exact Text.isControl_quotedChars hc

/-- A reader's own messages are one line, and quote where they show a part of the text. -/
theorem FirstFault.isControl_message {cs : List Char} {fault : Fault} (h : FirstFault cs fault) :
    ∀ c ∈ fault.message.toList, isControl c = false := by
  cases h with
  | empty | nonHexDigit | unknownName => exact isControl_of_mem (by decide)
  | digitCount | componentCount =>
    exact isControl_append (isControl_of_mem (by decide)) fun c => isControl_repr
  | invalidComponent => exact isControl_append (isControl_of_mem (by decide)) (isControl_quoted _)

theorem FirstFault.isControl_error {cs : List Char} {e : Error} (h : FirstFault cs e.fault) :
    ∀ c ∈ e.message.toList, isControl c = false := by
  have hbegin := isControl_append (isControl_of_mem (s := "invalid color ") (by decide))
    (isControl_quoted e.input)
  exact isControl_append (isControl_append hbegin (isControl_of_mem (by decide)))
    h.isControl_message

theorem toList_message (e : Error) : e.message.toList =
    "invalid color ".toList ++ quotedChars e.input.toList ++ (": " ++ e.fault.message).toList := by
  show ("invalid color " ++ Text.quoted e.input ++ ": " ++ e.fault.message).toList = _
  simp only [Text.quoted, String.toList_append, String.toList_ofList, List.append_assoc]

theorem firstQuoted?_message (e : Error) :
    firstQuoted? e.message.toList = some e.input.toList := by
  have hbefore : '"' ∉ "invalid color ".toList := by decide
  rw [toList_message, Text.firstQuoted?_append hbefore]

theorem symbol_message_eq (e : Error) :
    (Symbol.Error.color e).message = "symbol shader: " ++ e.message := rfl

theorem firstQuoted?_symbol_message (e : Error) :
    firstQuoted? (Symbol.Error.color e).message.toList = some e.input.toList := by
  have hbefore : '"' ∉ "symbol shader: ".toList ++ "invalid color ".toList := by decide
  rw [symbol_message_eq, String.toList_append, toList_message, ← List.append_assoc,
    ← List.append_assoc, Text.firstQuoted?_append hbefore]

theorem eq_of_firstQuoted? {line line' s t : String} (hs : firstQuoted? line.toList = some s.toList)
    (ht : firstQuoted? line'.toList = some t.toList) (h : line = line') : s = t := by
  rw [h, ht, Option.some.injEq, String.toList_inj] at hs
  exact hs.symm

/-- The message of a rejected text has no control character and tells the text: it is what the first
quotes of the message stand around. Texts with one message are therefore equal. -/
theorem parse_message_tells_text (text : String) (e : Error) (h : Rgba.parse text = .error e) :
    (∀ c ∈ e.message.toList, ¬(c.toNat ≤ 0x1f ∨ 0x7f ≤ c.toNat ∧ c.toNat ≤ 0x9f)) ∧
    (∀ c ∈ (Symbol.Error.color e).message.toList,
      ¬(c.toNat ≤ 0x1f ∨ 0x7f ≤ c.toNat ∧ c.toNat ≤ 0x9f)) ∧
    firstQuoted? e.message.toList = some text.toList ∧
    firstQuoted? (Symbol.Error.color e).message.toList = some text.toList ∧
    ∀ text' e', Rgba.parse text' = .error e' →
      (e.message = e'.message ↔ text = text') ∧
      ((Symbol.Error.color e).message = (Symbol.Error.color e').message ↔ text = text') := by
  obtain ⟨hinput, hfault⟩ := parse_eq_error_iff.mp h
  have hvisible := hfault.isControl_error
  have hwrapped : ∀ c ∈ (Symbol.Error.color e).message.toList, isControl c = false := by
    rw [symbol_message_eq]
    exact isControl_append (isControl_of_mem (by decide)) hvisible
  have hread := firstQuoted?_message e
  have hread' := firstQuoted?_symbol_message e
  rw [hinput] at hread hread'
  refine ⟨fun c hc => Text.isControl_eq_false_iff.mp (hvisible c hc),
    fun c hc => Text.isControl_eq_false_iff.mp (hwrapped c hc), hread, hread',
    fun text' e' h' => ?_⟩
  obtain ⟨rfl, -⟩ := parse_eq_error_iff.mp h'
  have hsame (heq : text = e'.input) : e = e' := by
    rw [heq, h'] at h
    exact (Except.error.inj h).symm
  constructor
  · exact ⟨eq_of_firstQuoted? hread (firstQuoted?_message e'), fun heq => by rw [hsame heq]⟩
  · exact ⟨eq_of_firstQuoted? hread' (firstQuoted?_symbol_message e'),
      fun heq => by rw [hsame heq]⟩

/-- The text looks like the end of a message, and like a code of its own line end. -/
theorem parse_message_tells_text_of_look_alike :
    let text := "#\": \\u\x7ba\x7d\n\x7f"
    let e : Error := ⟨.nonHexDigit, text⟩
    Rgba.parse text = .error e ∧
      e.message = "invalid color \"#\\\": \\\\u\x7ba\x7d\\n\\u\x7b7f\x7d\": " ++
        "non-hex digit in color literal" ∧
      firstQuoted? e.message.toList = some text.toList ∧
      Rgba.parse "#\": \\u\x7ba\x7d\n" = .error ⟨.nonHexDigit, "#\": \\u\x7ba\x7d\n"⟩ ∧
      e.message ≠ Error.message ⟨.nonHexDigit, "#\": \\u\x7ba\x7d\n"⟩ := by
  intro text e
  have hparse : Rgba.parse text = .error e := by decide +kernel
  have hshorter : Rgba.parse "#\": \\u\x7ba\x7d\n" =
      .error ⟨.nonHexDigit, "#\": \\u\x7ba\x7d\n"⟩ := by decide +kernel
  obtain ⟨-, -, hread, -, htells⟩ := parse_message_tells_text text e hparse
  refine ⟨hparse, by decide +kernel, hread, hshorter, fun hmessage => ?_⟩
  have heq := (htells _ _ hshorter).1.mp hmessage
  exact absurd heq (by decide)

end PointSymbol.Color
