import PointSymbol.Proofs.Binary.Finite
import PointSymbol.Proofs.Symbol.Resolve

/-!
# First faults

A style is refused for its first fault: a missing size, then a color text that the resolver rejects,
then the first of its numbers that is not finite. A style without a fault resolves to the symbol
with its own values, and with the defaults where it leaves a field open.
-/

namespace PointSymbol
open Color (Channels Paint Resolver)
open PointSymbol.Symbol (Field)

namespace Color.Resolver

/-- The channels of a paint, white if there is none. -/
inductive Paints (resolver : Resolver) : Option Paint → Channels → Prop
  | unset : resolver.Paints none ⟨255, 255, 255, 1⟩
  | channels (c : Channels) : resolver.Paints (some (.channels c)) c
  | text {t : String} {c : Channels} (h : resolver t = .ok c) : resolver.Paints (some (.text t)) c

/-- A resolver with a table. Texts that are not in it are declined for the given reason, or else
read as CSS. -/
def palette (table : List (String × Channels)) (reason : Option String) : Resolver := fun text =>
  match table.lookup text, reason with
  | some channels, _ => .ok channels
  | none, some reason => .error ⟨.declined reason, text⟩
  | none, none => css text

variable {resolver : Resolver} {paint : Option Paint} {e : Color.Error} {c : Channels}

@[simp] theorem result_resolve_text (resolver : Resolver) (t : String) :
    ((Paint.text t).resolve resolver).result = resolver t := by
  simp only [Paint.resolve, Logged.result_bind, Logged.result_liftM, Logged.result_record,
    Logged.result_pure]
  cases resolver t <;> rfl

@[simp] theorem result_resolve_channels (resolver : Resolver) (c : Channels) :
    ((Paint.channels c).resolve resolver).result = .ok c := rfl

theorem result_resolve_of_paints (h : resolver.Paints paint c) :
    ((paint.getD (.channels .white)).resolve resolver).result = .ok c := by
  cases h with
  | unset => rfl
  | channels c => rfl
  | text h => simp [h]

theorem rejects_or_paints (resolver : Resolver) (paint : Option Paint) :
    (∃ t e, paint = some (.text t) ∧ resolver t = .error e) ∨ ∃ c, resolver.Paints paint c := by
  rcases paint with _ | t | c
  · exact .inr ⟨_, .unset⟩
  · cases h : resolver t with
    | error e => exact .inl ⟨t, e, rfl, h⟩
    | ok c => exact .inr ⟨c, .text h⟩
  · exact .inr ⟨c, .channels c⟩

end Color.Resolver

namespace Symbol
variable {s : Symbol} {e : Error}

/-- The fault of a list of numbers is the first that is not finite. -/
def FirstFault (xs : List (Field × Double)) (e : Error) : Prop :=
  ∃ before field x after, xs = before ++ (field, x) :: after ∧ (∀ p ∈ before, p.2.isFinite) ∧
    (x.isNaN ∨ x.isInfinite) ∧ e = .nonFinite field x

theorem firstFault_iff_find? {xs : List (Field × Double)} :
    FirstFault xs e ↔ ∃ field x,
      xs.find? (fun p => !p.2.isFinite) = some (field, x) ∧ e = .nonFinite field x := by
  constructor
  · rintro ⟨before, field, x, after, hsplit, hbefore, hx, rfl⟩
    have hx := Binary.isFinite_eq_false_iff.mpr hx
    refine ⟨field, x, List.find?_eq_some_iff_append.mpr ⟨by simp [hx], before, after, hsplit, ?_⟩,
      rfl⟩
    intro p hp
    simp [hbefore p hp]
  · rintro ⟨field, x, hfind, rfl⟩
    obtain ⟨hx, before, after, hsplit, hbefore⟩ := List.find?_eq_some_iff_append.mp hfind
    have hx : x.isFinite = false := by simpa using hx
    exact ⟨before, field, x, after, hsplit, by simpa using hbefore,
      Binary.isFinite_eq_false_iff.mp hx, rfl⟩

theorem check_eq_error_iff : s.check = .error e ↔ FirstFault s.numbers e := by
  rw [firstFault_iff_find?]
  unfold check
  cases s.numbers.find? fun p => !p.2.isFinite with
  | none => simp
  | some p =>
    obtain ⟨field, x⟩ := p
    simp [eq_comm]

end Symbol

namespace Style

/-- The sides of a size. -/
inductive Size.Gives : Size → Vec2 → Prop
  | square (side : Double) : Gives (.square side) ⟨side, side⟩
  | extent (width height : Double) : Gives (.extent width height) ⟨width, height⟩

theorem Size.gives_iff {size : Size} {v : Vec2} : size.Gives v ↔ v = size.resolve := by
  constructor
  · intro h
    cases h <;> rfl
  · intro h
    rw [h]
    cases size with
    | square side => exact .square side
    | extent width height => exact .extent width height

theorem Size.exists_gives (size : Size) : ∃ v, size.Gives v :=
  ⟨_, gives_iff.mpr rfl⟩

variable {resolver : Resolver} {s : Style} {size : Size} {sides : Vec2} {color : Channels}

/-- The symbol of a style with these sides and this color, with the defaults for what the style
leaves open. -/
def filled (s : Style) (sides : Vec2) (color : Channels) : Symbol where
  size := sides
  rotatesWithView := s.rotatesWithView
  offset := s.offset.getD ⟨0, 0⟩
  textureCoord := s.textureCoord.getD ⟨0, 0, 1, 1⟩
  opacity := s.opacity.getD 1
  color := color

theorem result_resolve_of_none (h : s.size = none) :
    (s.resolve resolver).result = .error (.missing .size) := by
  unfold resolve
  rw [h]
  rfl

theorem result_resolve_of_rejects {t : String} {e : Color.Error} (hsize : s.size = some size)
    (ht : s.color = some (.text t)) (he : resolver t = .error e) :
    (s.resolve resolver).result = .error (.color e) := by
  unfold resolve
  rw [hsize, ht]
  simp [Logged.mapError, he]
  rfl

theorem result_resolve_of_paints (hsize : s.size = some size) (hsides : size.Gives sides)
    (h : resolver.Paints s.color color) :
    (s.resolve resolver).result = (s.filled sides color).check := by
  unfold resolve
  rw [hsize, Size.gives_iff.mp hsides]
  simp [Logged.mapError, Color.Resolver.result_resolve_of_paints h]
  rfl

theorem resolve_cases (resolver : Resolver) (s : Style) :
    (s.size = none ∧ (s.resolve resolver).result = .error (.missing .size)) ∨
      ∃ size, s.size = some size ∧
        ((∃ t e, s.color = some (.text t) ∧ resolver t = .error e ∧
            (s.resolve resolver).result = .error (.color e)) ∨
          ∃ sides color, size.Gives sides ∧ resolver.Paints s.color color ∧
            (s.resolve resolver).result = (s.filled sides color).check) := by
  cases hsize : s.size with
  | none => exact .inl ⟨rfl, result_resolve_of_none hsize⟩
  | some size =>
    refine .inr ⟨size, rfl, ?_⟩
    rcases resolver.rejects_or_paints s.color with ⟨t, e, ht, he⟩ | ⟨color, hcolor⟩
    · exact .inl ⟨t, e, ht, he, result_resolve_of_rejects hsize ht he⟩
    · obtain ⟨sides, hsides⟩ := size.exists_gives
      exact .inr ⟨sides, color, hsides, hcolor, result_resolve_of_paints hsize hsides hcolor⟩

/-- A resolved symbol has the values of its style. -/
theorem exists_filled_of_resolve {n : Symbol} (h : (s.resolve resolver).result = .ok n) :
    ∃ size sides color, s.size = some size ∧ size.Gives sides ∧ resolver.Paints s.color color ∧
      n = s.filled sides color := by
  rcases resolve_cases resolver s with
    ⟨-, h'⟩ | ⟨size, hsize, ⟨t, e, -, -, h'⟩ | ⟨sides, color, hsides, hcolor, h'⟩⟩
  · rw [h'] at h
    cases h
  · rw [h'] at h
    cases h
  · rw [h'] at h
    obtain ⟨rfl, -⟩ := Symbol.check_eq_ok_iff.mp h
    exact ⟨size, sides, color, hsize, hsides, hcolor, rfl⟩

theorem resolve_eq_missing_iff {field : Field} :
    (s.resolve resolver).result = .error (.missing field) ↔ field = .size ∧ s.size = none := by
  rcases resolve_cases resolver s with
    ⟨hsize, h⟩ | ⟨size, hsize, ⟨t, e, -, -, h⟩ | ⟨sides, color, -, -, h⟩⟩
  · simp [h, hsize, eq_comm]
  · simp [h, hsize]
  · rw [h, Symbol.check_eq_error_iff, hsize]
    simp [Symbol.FirstFault]

theorem resolve_eq_color_iff (hsize : s.size = some size) {e : Color.Error} :
    (s.resolve resolver).result = .error (.color e) ↔
      ∃ t, s.color = some (.text t) ∧ resolver t = .error e := by
  constructor
  · intro h
    rcases resolve_cases resolver s with
      ⟨-, h'⟩ | ⟨size, -, ⟨t, e', ht, he, h'⟩ | ⟨sides, color, -, -, h'⟩⟩
    · rw [h'] at h
      cases h
    · rw [h'] at h
      cases h
      exact ⟨t, ht, he⟩
    · rw [h', Symbol.check_eq_error_iff] at h
      obtain ⟨_, _, _, _, -, -, -, h⟩ := h
      cases h
  · rintro ⟨t, ht, he⟩
    exact result_resolve_of_rejects hsize ht he

/-- A style resolves exactly if it has a size, its color is not rejected, and all of its numbers are
finite. Otherwise the first fault in this order is the error. -/
theorem resolve_first_fault (resolver : Resolver) (s : Style) :
    (∀ field, (s.resolve resolver).result = .error (.missing field) ↔
      field = .size ∧ s.size = none) ∧
    ∀ size, s.size = some size →
      (∀ e, (s.resolve resolver).result = .error (.color e) ↔
        ∃ t, s.color = some (.text t) ∧ resolver t = .error e) ∧
      ((∃ t e, s.color = some (.text t) ∧ resolver t = .error e) ∨
        ∃ color, resolver.Paints s.color color) ∧
      (∃ sides, size.Gives sides) ∧
      ∀ sides color, size.Gives sides → resolver.Paints s.color color →
        let n := s.filled sides color
        let numbers : List (Field × Double) :=
          [(.size, n.size.x), (.size, n.size.y), (.offset, n.offset.x), (.offset, n.offset.y),
            (.textureCoord, n.textureCoord.u0), (.textureCoord, n.textureCoord.v0),
            (.textureCoord, n.textureCoord.u1), (.textureCoord, n.textureCoord.v1),
            (.opacity, n.opacity), (.color, n.color.red), (.color, n.color.green),
            (.color, n.color.blue), (.color, n.color.alpha)]
        (∀ e, (s.resolve resolver).result = .error e ↔ Symbol.FirstFault numbers e) ∧
        ∀ m, (s.resolve resolver).result = .ok m ↔ m = n ∧ ∀ p ∈ numbers, p.2.isFinite := by
  refine ⟨fun field => resolve_eq_missing_iff, fun size hsize =>
    ⟨fun e => resolve_eq_color_iff hsize, resolver.rejects_or_paints s.color, size.exists_gives,
      fun sides color hsides hcolor => ?_⟩⟩
  have hresult := result_resolve_of_paints hsize hsides hcolor
  constructor
  · intro e
    rw [hresult]
    exact Symbol.check_eq_error_iff
  · intro m
    rw [hresult]
    exact Symbol.check_eq_ok_iff.trans (and_congr_left' eq_comm)

/-- The infinite side comes before the opacity, as the height of an extent and as the width of a
square. A resolver that declines the color comes before both. Without a fault the side of a square
is its width and its height. -/
theorem resolve_first_fault_of_infinite_side :
    let s (size : Size) (opacity : Option Double) : Style :=
      ⟨some size, false, none, none, opacity, some (.text "navy")⟩
    ((s (.extent 1 (.infinity false)) (some .nan)).resolve .css).result =
        .error (.nonFinite .size (.infinity false)) ∧
      ((s (.square (.infinity true)) (some .nan)).resolve .css).result =
        .error (.nonFinite .size (.infinity true)) ∧
      ((s (.square (.infinity true)) (some .nan)).resolve (.palette [] (some "no ink"))).result =
        .error (.color ⟨.declined "no ink", "navy"⟩) ∧
      ((s (.square 3) none).resolve .css).result =
        .ok ⟨⟨3, 3⟩, false, ⟨0, 0⟩, ⟨0, 0, 1, 1⟩, 1, ⟨0, 0, 128, 1⟩⟩ := by
  intro s
  have hnavy : Resolver.css.Paints (some (.text "navy")) ⟨0, 0, 128, 1⟩ :=
    .text (by decide +kernel)
  have hsized (resolver : Resolver) (size : Size) (opacity : Option Double) :=
    (resolve_first_fault resolver (s size opacity)).2 size rfl
  refine ⟨?_, ?_, ?_, ?_⟩
  · obtain ⟨-, -, -, hgiven⟩ := hsized .css (.extent 1 (.infinity false)) (some .nan)
    obtain ⟨herror, -⟩ := hgiven _ _ (.extent _ _) hnavy
    have hwidth : ∀ p ∈ [(Field.size, (1 : Double))], p.2.isFinite := by decide +kernel
    exact (herror _).mpr ⟨_, .size, .infinity false, _, rfl, hwidth, .inr (by decide), rfl⟩
  · obtain ⟨-, -, -, hgiven⟩ := hsized .css (.square (.infinity true)) (some .nan)
    obtain ⟨herror, -⟩ := hgiven _ _ (.square _) hnavy
    exact (herror _).mpr ⟨[], .size, .infinity true, _, rfl, by simp, .inr (by decide), rfl⟩
  · obtain ⟨hcolor, -⟩ :=
      hsized (.palette [] (some "no ink")) (.square (.infinity true)) (some .nan)
    exact (hcolor _).mpr ⟨_, rfl, rfl⟩
  · obtain ⟨-, -, -, hgiven⟩ := hsized .css (.square 3) none
    obtain ⟨-, hok⟩ := hgiven _ _ (.square _) hnavy
    exact (hok _).mpr ⟨rfl, by decide +kernel⟩

end Style

end PointSymbol
