import PointSymbol.Shader.Source
import PointSymbol.Style.Call

/-!
# The last call for a field

A call gives a value to one field and leaves the others alone, so after a sequence of calls a field
has the value of the last call for it. Only the order of calls for one field matters.
-/

namespace PointSymbol.Style
open Color (Channels Paint Resolver)

inductive Field where
  | size
  | rotatesWithView
  | offset
  | textureCoord
  | opacity
  | color
  deriving DecidableEq

def Field.Value : Field → Type
  | size => Size
  | rotatesWithView => Bool
  | offset => Vec2
  | textureCoord => TextureRect
  | opacity => Double
  | color => Paint

/-- The value of a field, if it is set. -/
def get (s : Style) : (field : Field) → Option field.Value
  | .size => s.size
  | .rotatesWithView => some s.rotatesWithView
  | .offset => s.offset
  | .textureCoord => s.textureCoord
  | .opacity => s.opacity
  | .color => s.color

/-- The field that a call is for. -/
def Call.field : Call → Field
  | .size _ | .side _ | .sides _ _ => .size
  | .rotatesWithView _ => .rotatesWithView
  | .offset _ | .offsetNumbers _ _ => .offset
  | .textureCoord _ | .textureNumbers _ _ _ _ => .textureCoord
  | .opacity _ => .opacity
  | .color _ | .colorText _ | .colorChannels _ | .colorNumbers _ _ _ _ => .color

/-- The value that a call gives to a field, if the call is one for the field. -/
def Call.value? : Call → (field : Field) → Option field.Value
  | .size s, .size => some s
  | .side a, .size => some (Size.square a)
  | .sides w h, .size => some (Size.extent w h)
  | .rotatesWithView b, .rotatesWithView => some b
  | .offset v, .offset => some v
  | .offsetNumbers x y, .offset => some (Vec2.mk x y)
  | .textureCoord r, .textureCoord => some r
  | .textureNumbers u0 v0 u1 v1, .textureCoord => some (TextureRect.mk u0 v0 u1 v1)
  | .opacity a, .opacity => some a
  | .color p, .color => some p
  | .colorText t, .color => some (Paint.text t)
  | .colorChannels c, .color => some (Paint.channels c)
  | .colorNumbers r g b a, .color => some (Paint.channels (Channels.mk r g b a))
  | _, _ => none

/-- The values that calls give to a field, in their order. -/
def given (field : Field) (calls : List Call) : List field.Value :=
  calls.filterMap (·.value? field)

variable {s t : Style} {calls calls' : List Call} {field : Field}

theorem ext_get (h : ∀ field, s.get field = t.get field) : s = t := by
  obtain ⟨size, rotates, offset, textureCoord, opacity, color⟩ := s
  obtain ⟨size', rotates', offset', textureCoord', opacity', color'⟩ := t
  obtain rfl : size = size' := h .size
  obtain rfl : rotates = rotates' := Option.some.inj (h .rotatesWithView)
  obtain rfl : offset = offset' := h .offset
  obtain rfl : textureCoord = textureCoord' := h .textureCoord
  obtain rfl : opacity = opacity' := h .opacity
  obtain rfl : color = color' := h .color
  rfl

theorem build_cons (s : Style) (c : Call) (calls : List Call) :
    s.build (c :: calls) = (s.apply c.change).build calls := rfl

theorem get_apply_change (s : Style) (c : Call) (field : Field) :
    (s.apply c.change).get field = (c.value? field).or (s.get field) := by
  cases c <;> cases field <;> rfl

theorem getLast?_given_cons (field : Field) (c : Call) (calls : List Call) :
    (given field (c :: calls)).getLast? = (given field calls).getLast?.or (c.value? field) := by
  rw [given, List.filterMap_cons]
  cases c.value? field with
  | none => rw [Option.or_none, given]
  | some v =>
    rw [List.getLast?_cons, given]
    cases (calls.filterMap (·.value? field)).getLast? <;> rfl

/-- After a sequence of calls a field has the last value given to it, or else the value it had. -/
theorem get_build (s : Style) (calls : List Call) (field : Field) :
    (s.build calls).get field = (given field calls).getLast?.or (s.get field) := by
  induction calls generalizing s with
  | nil => rfl
  | cons c calls ih => rw [build_cons, ih, get_apply_change, getLast?_given_cons, Option.or_assoc]

theorem Call.isSome_value? (c : Call) (field : Field) :
    (c.value? field).isSome = decide (c.field = field) := by
  cases c <;> cases field <;> rfl

theorem given_filter (field : Field) (calls : List Call) :
    given field (calls.filter (·.field = field)) = given field calls := by
  rw [given, List.filterMap_filter, given]
  congr 1
  funext c
  rw [← c.isSome_value? field]
  cases c.value? field <;> rfl

/-- The same calls in another order, which calls for one field keep. -/
def Reorders (calls calls' : List Call) : Prop :=
  ∀ field : Field, calls.filter (·.field = field) = calls'.filter (·.field = field)

theorem Reorders.build_eq (h : Reorders calls calls') (s : Style) :
    s.build calls = s.build calls' := by
  apply ext_get
  intro field
  rw [get_build, get_build, ← given_filter field calls, h field, given_filter]

theorem build_of_value? {c : Call} {size : Size} (h : c.value? .size = some size)
    (calls : List Call) : (ofSize size).build calls = ({} : Style).build (c :: calls) := by
  have hstyle : ofSize size = ({} : Style).apply c.change := by
    cases c <;> cases h <;> rfl
  rw [build_cons, hstyle]

/-- The last call for a field wins, and calls for other fields do not matter. -/
theorem build_last_call (s : Style) (calls : List Call) :
    (∀ field, (s.build calls).get field = (given field calls).getLast?.or (s.get field)) ∧
    (∀ (c : Call) (field : Field), (c.value? field).isSome = decide (c.field = field)) ∧
    (∀ calls', Reorders calls calls' → s.build calls = s.build calls' ∧ ∀ resolver : Resolver,
      (s.build calls).resolve resolver = (s.build calls').resolve resolver ∧
      (s.build calls).vertexShader resolver = (s.build calls').vertexShader resolver) ∧
    ∀ (c : Call) (size : Size), c.value? .size = some size →
      (ofSize size).build calls = ({} : Style).build (c :: calls) := by
  refine ⟨get_build s calls, Call.isSome_value?, fun calls' h => ?_,
    fun c size h => build_of_value? h calls⟩
  rw [h.build_eq s]
  exact ⟨rfl, fun resolver => ⟨rfl, rfl⟩⟩

/-- Two calls for the size and two for the color, taken apart. -/
theorem build_last_call_of_interleaved :
    let calls : List Call :=
      [.side 8, .colorText "Navy", .sides 16 24, .rotatesWithView true, .colorNumbers 1 2 3 0]
    let calls' : List Call :=
      [.colorText "Navy", .colorNumbers 1 2 3 0, .side 8, .rotatesWithView true, .sides 16 24]
    Reorders calls calls' ∧ ({} : Style).build calls' = (ofSize (.square 8)).build calls.tail ∧
      (({} : Style).build calls').get .size = some (Size.extent 16 24) := by
  intro calls calls'
  have horder : Reorders calls calls' := by
    intro field
    cases field <;> rfl
  obtain ⟨hget, -, hreorder, -⟩ := build_last_call {} calls
  obtain ⟨-, -, -, hsize⟩ := build_last_call {} calls.tail
  obtain ⟨hbuild, -⟩ := hreorder calls' horder
  rw [← hbuild]
  exact ⟨horder, (hsize (.side 8) (.square 8) rfl).symm, hget .size⟩

end PointSymbol.Style
