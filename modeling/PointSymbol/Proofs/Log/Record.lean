import PointSymbol.Log.Record
import PointSymbol.Proofs.Decimal.Forms
import PointSymbol.Proofs.Text.Quoted

/-!
# Texts of records

The record of a resolved color tells the text and the channels: its first quotes stand around the
text, and every number that is finite reads back as the channel.
-/

namespace PointSymbol.Log
open Color (Channels)

/-- A finite number reads back from its text, and the other numbers go by their names. -/
inductive Tells : String → Double → Prop
  | finite {text : String} {x : Double} {d : Decimal} (hx : x.isFinite)
      (hread : Decimal.read? text.toList = some d) (hd : d.toBinary .double = x) : Tells text x
  | infinite (negative : Bool) :
      Tells (if negative then "-inf" else "inf") (.infinity negative)
  | nan {x : Double} (hx : x.isNaN) : Tells "NaN" x

variable {x : Double}

theorem text_of_isNaN (h : x.isNaN) : numberForm.text x = "NaN" := by
  rw [Decimal.Form.text, Decimal.Form.chars, if_pos h]

theorem text_infinity (negative : Bool) :
    numberForm.text (.infinity negative : Double) = if negative then "-inf" else "inf" := by
  cases negative <;> decide +kernel

theorem tells_numberForm (x : Double) : Tells (numberForm.text x) x := by
  rcases x.isNaN_or_isInfinite_or_isFinite with h | h | h
  · rw [text_of_isNaN h]
    exact .nan h
  · obtain ⟨negative, code, hcode⟩ := x
    obtain rfl : code = Binary.Format.double.infinity := by simpa [Binary.isInfinite] using h
    have htells := Tells.infinite negative
    rwa [← text_infinity] at htells
  · obtain ⟨d, hread, hd⟩ := numberForm.exists_read?_text h
    exact .finite h hread hd

namespace Record

theorem message_colorResolved (t : String) (c : Channels) :
    (colorResolved t c).message = "resolved color " ++ Text.quoted t ++
      " to ColorChannels \x7b r: " ++ numberForm.text c.red ++ ", g: " ++
        numberForm.text c.green ++ ", b: " ++ numberForm.text c.blue ++ ", a: " ++
          numberForm.text c.alpha ++ " \x7d" := by
  -- the text of the channels begins in the middle of this literal
  have hto : " to ColorChannels \x7b r: " = " to " ++ "ColorChannels \x7b r: " := by
    decide +kernel
  unfold message channelsText
  simp only [hto, String.append_assoc]

theorem toList_message (t : String) (c : Channels) : (colorResolved t c).message.toList =
    "resolved color ".toList ++ Text.quotedChars t.toList ++ (" to " ++ channelsText c).toList := by
  show ("resolved color " ++ Text.quoted t ++ " to " ++ channelsText c).toList = _
  simp only [Text.quoted, String.toList_append, String.toList_ofList, List.append_assoc]

theorem firstQuoted?_message (t : String) (c : Channels) :
    Text.firstQuoted? (colorResolved t c).message.toList = some t.toList := by
  have hbefore : '"' ∉ "resolved color ".toList := by decide
  rw [toList_message, Text.firstQuoted?_append hbefore]

end Record

end PointSymbol.Log
