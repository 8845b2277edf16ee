import PointSymbol.Proofs.Log.Record
import PointSymbol.Proofs.Shader.Generation
import PointSymbol.Proofs.Symbol.FirstFault

/-!
# Records of a run

The resolver is asked only for the color text of a style that has a size, and for that text as it
was given. The records of a run are the answer, if the resolver gave channels, and then the size of
the source, if there is one. The text of a record tells the color text and the channels.
-/

namespace PointSymbol
open Color (Channels Paint Resolver)
open Log (Record)

/-- The resolver has to be asked for the text. -/
structure Style.Asks (s : Style) (t : String) : Prop where
  size : ∃ size, s.size = some size
  color : s.color = some (.text t)

namespace Color

variable {resolver resolver' : Resolver} {t : String} {c : Channels} {e : Error}

theorem Paint.resolve_congr {paint : Paint}
    (h : ∀ t, paint = .text t → resolver t = resolver' t) :
    paint.resolve resolver = paint.resolve resolver' := by
  cases paint with
  | channels c => rfl
  | text t => rw [resolve, resolve, h t rfl]

theorem Paint.records_resolve_text_of_ok (h : resolver t = .ok c) :
    ((text t).resolve resolver).records = [.colorResolved t c] := by
  rw [resolve, h]
  rfl

theorem Paint.records_resolve_text_of_error (h : resolver t = .error e) :
    ((text t).resolve resolver).records = [] := by
  rw [resolve, h]
  rfl

end Color

namespace Style
variable {resolver resolver' : Resolver} {s : Style} {t : String} {c : Channels}

/-! ## Resolving -/

theorem Asks.unique {t' : String} (h : s.Asks t) (h' : s.Asks t') : t = t' := by
  have hcolor := h.color.symm.trans h'.color
  cases hcolor
  rfl

/-- Resolving depends on the resolver only through its answer to the text that it is asked for. -/
theorem resolve_congr (h : ∀ t, s.Asks t → resolver t = resolver' t) :
    s.resolve resolver = s.resolve resolver' := by
  unfold resolve
  cases hsize : s.size with
  | none => rfl
  | some size =>
    dsimp only
    rw [Paint.resolve_congr]
    intro t ht
    cases hcolor : s.color with
    | none =>
      rw [hcolor] at ht
      cases ht
    | some paint =>
      rw [hcolor, Option.getD_some] at ht
      exact h t ⟨⟨size, hsize⟩, hcolor.trans (congrArg some ht)⟩

theorem vertexShader_congr (h : ∀ t, s.Asks t → resolver t = resolver' t) :
    s.vertexShader resolver = s.vertexShader resolver' := by
  unfold vertexShader
  rw [resolve_congr h]

/-- Checking the numbers of a symbol writes no record. -/
theorem records_resolve_of_size (resolver : Resolver) {size : Size} (hsize : s.size = some size) :
    (s.resolve resolver).records =
      ((s.color.getD (.channels .white)).resolve resolver).records := by
  unfold resolve
  rw [hsize]
  dsimp only
  generalize (s.color.getD (.channels .white)).resolve resolver = m
  obtain ⟨result, records⟩ := m
  cases result with
  | error e => exact Logged.records_bind_of_error rfl _
  | ok c =>
    rw [Logged.records_bind_of_ok rfl, Logged.records_liftM, List.append_nil]
    rfl

/-- The answer of the resolver, if it was asked and gave channels, as a record. -/
inductive Answer (resolver : Resolver) (s : Style) : List Record → Prop
  | unasked (h : ∀ t, ¬s.Asks t) : Answer resolver s []
  | rejected {t : String} {e : Color.Error} (hasks : s.Asks t) (he : resolver t = .error e) :
      Answer resolver s []
  | accepted {t : String} {c : Channels} {r : Record} (hasks : s.Asks t)
      (hc : resolver t = .ok c) (hr : r = .colorResolved t c) (hlevel : r.level = "TRACE")
      (hmessage : r.message = "resolved color " ++ Text.quoted t ++
        " to ColorChannels \x7b r: " ++ Log.numberForm.text c.red ++ ", g: " ++
          Log.numberForm.text c.green ++ ", b: " ++ Log.numberForm.text c.blue ++ ", a: " ++
            Log.numberForm.text c.alpha ++ " \x7d")
      (htext : Text.firstQuoted? r.message.toList = some t.toList)
      (hnumbers : ∀ x ∈ [c.red, c.green, c.blue, c.alpha], Log.Tells (Log.numberForm.text x) x) :
      Answer resolver s [r]

theorem answer_resolve (resolver : Resolver) (s : Style) :
    Answer resolver s (s.resolve resolver).records := by
  cases hsize : s.size with
  | none =>
    unfold resolve
    rw [hsize]
    refine .unasked fun t hasks => ?_
    obtain ⟨size, h⟩ := hasks.size
    rw [hsize] at h
    cases h
  | some size =>
    rw [records_resolve_of_size resolver hsize]
    have hunasked (h : ∀ t, s.color ≠ some (.text t)) (t : String) : ¬s.Asks t :=
      fun hasks => h t hasks.color
    rcases hcolor : s.color with _ | t | c
    · exact .unasked (hunasked (by simp [hcolor]))
    · have hasks : s.Asks t := ⟨⟨size, hsize⟩, hcolor⟩
      rw [Option.getD_some]
      cases ht : resolver t with
      | error e =>
        rw [Paint.records_resolve_text_of_error ht]
        exact .rejected hasks ht
      | ok c =>
        rw [Paint.records_resolve_text_of_ok ht]
        exact .accepted hasks ht rfl rfl (Record.message_colorResolved t c)
          (Record.firstQuoted?_message t c) fun x _ => Log.tells_numberForm x
    · exact .unasked (hunasked (by simp [hcolor]))

/-! ## Generating -/

/-- The size of a source, if there is one, as a record. -/
inductive Generation (rotates : Bool) : Except Symbol.Error String → List Record → Prop
  | failed (e : Symbol.Error) : Generation rotates (.error e) []
  | generated {source : String} {r : Record} (hr : r = .sourceGenerated rotates source.utf8ByteSize)
      (hlevel : r.level = "DEBUG")
      (hmessage : r.message = "generated symbol vertex shader (" ++
        (if rotates then "scale+rotate" else "scale") ++ " offset, " ++
          source.utf8ByteSize.repr ++ " bytes)") :
      Generation rotates (.ok source) [r]

theorem exists_records_vertexShader (resolver : Resolver) (s : Style) :
    ∃ generated, (s.vertexShader resolver).records = (s.resolve resolver).records ++ generated ∧
      Generation s.rotatesWithView (s.vertexShader resolver).result generated := by
  cases hn : (s.resolve resolver).result with
  | error e =>
    refine ⟨[], ?_, ?_⟩
    · rw [List.append_nil, vertexShader, Logged.records_bind_of_error hn]
    · rw [vertexShader_of_resolve_error hn]
      exact .failed e
  | ok n =>
    rw [vertexShader_of_resolve hn, vertexShader, Logged.records_bind_of_ok hn]
    refine ⟨_, rfl, ?_⟩
    cases hb : n.bake with
    | error e => exact .failed e
    | ok b =>
      obtain ⟨size, sides, color, -, -, -, rfl⟩ := exists_filled_of_resolve hn
      have hrotates : b.rotates = s.rotatesWithView := (Symbol.values_of_bake hb).1
      rw [← hrotates]
      exact .generated rfl rfl rfl

/-! ## Answers that show -/

/-- The answer shows in a run as its first record or as its error. -/
def Shows {α : Type} (t : String) (answer : Except Color.Error Channels)
    (m : Logged Symbol.Error α) : Prop :=
  match answer with
  | .ok c => ∃ rest, m.records = .colorResolved t c :: rest
  | .error e => m.records = [] ∧ m.result = .error (.color e)

theorem Shows.unique {α : Type} {a b : Except Color.Error Channels} {m : Logged Symbol.Error α}
    (ha : Shows t a m) (hb : Shows t b m) : a = b := by
  rcases a with e | c <;> rcases b with e' | c'
  · have hresult := ha.2.symm.trans hb.2
    cases hresult
    rfl
  · obtain ⟨rest, hb⟩ := hb
    cases ha.1.symm.trans hb
  · obtain ⟨rest, ha⟩ := ha
    cases hb.1.symm.trans ha
  · obtain ⟨rest, ha⟩ := ha
    obtain ⟨rest', hb⟩ := hb
    cases ha.symm.trans hb
    rfl

theorem shows_resolve (resolver : Resolver) (hasks : s.Asks t) :
    Shows t (resolver t) (s.resolve resolver) := by
  obtain ⟨size, hsize⟩ := hasks.size
  have hrecords := records_resolve_of_size resolver hsize
  rw [hasks.color, Option.getD_some] at hrecords
  cases ht : resolver t with
  | error e =>
    rw [Paint.records_resolve_text_of_error ht] at hrecords
    exact ⟨hrecords, result_resolve_of_rejects hsize hasks.color ht⟩
  | ok c =>
    rw [Paint.records_resolve_text_of_ok ht] at hrecords
    exact ⟨[], hrecords⟩

theorem shows_vertexShader (resolver : Resolver) (hasks : s.Asks t) :
    Shows t (resolver t) (s.vertexShader resolver) := by
  have hresolve := shows_resolve resolver hasks
  obtain ⟨generated, hrecords, hgeneration⟩ := exists_records_vertexShader resolver s
  cases ht : resolver t with
  | error e =>
    rw [ht] at hresolve
    have hresult := vertexShader_of_resolve_error hresolve.2
    rw [hresult] at hgeneration
    cases hgeneration
    rw [hresolve.1] at hrecords
    exact ⟨hrecords, hresult⟩
  | ok c =>
    rw [ht] at hresolve
    obtain ⟨rest, hrest⟩ := hresolve
    rw [hrest] at hrecords
    exact ⟨rest ++ generated, hrecords⟩

theorem resolve_eq_iff (hasks : s.Asks t) :
    s.resolve resolver = s.resolve resolver' ↔ resolver t = resolver' t := by
  constructor
  · intro h
    have hshows := shows_resolve resolver hasks
    rw [h] at hshows
    exact hshows.unique (shows_resolve resolver' hasks)
  · intro h
    exact resolve_congr fun t' ht' => hasks.unique ht' ▸ h

theorem vertexShader_eq_iff (hasks : s.Asks t) :
    s.vertexShader resolver = s.vertexShader resolver' ↔ resolver t = resolver' t := by
  constructor
  · intro h
    have hshows := shows_vertexShader resolver hasks
    rw [h] at hshows
    exact hshows.unique (shows_vertexShader resolver' hasks)
  · intro h
    exact vertexShader_congr fun t' ht' => hasks.unique ht' ▸ h

/-- A run sees nothing of the resolver but its answer to the color text as it is given, and nothing
at all if there is no size or no such text. Every answer shows, and the records are the channels
that were given and then the size of the source that was generated. -/
theorem vertexShader_records (s : Style) :
    ((∀ t, ¬s.Asks t) → ∀ resolver resolver' : Resolver,
      s.resolve resolver = s.resolve resolver' ∧
      s.vertexShader resolver = s.vertexShader resolver' ∧
      ∀ r ∈ (s.resolve resolver).records ++ (s.vertexShader resolver).records,
        r.level ≠ "TRACE") ∧
    (∀ t, s.Asks t → ∀ resolver resolver' : Resolver,
      (s.resolve resolver = s.resolve resolver' ↔ resolver t = resolver' t) ∧
      (s.vertexShader resolver = s.vertexShader resolver' ↔ resolver t = resolver' t)) ∧
    ∀ resolver, ∃ answer generated,
      (s.resolve resolver).records = answer ∧
      (s.vertexShader resolver).records = answer ++ generated ∧
      Answer resolver s answer ∧
      Generation s.rotatesWithView (s.vertexShader resolver).result generated := by
  refine ⟨fun hunasked resolver resolver' => ⟨resolve_congr fun t ht => absurd ht (hunasked t),
    vertexShader_congr fun t ht => absurd ht (hunasked t), ?_⟩,
    fun t hasks resolver resolver' => ⟨resolve_eq_iff hasks, vertexShader_eq_iff hasks⟩,
    fun resolver => ?_⟩
  · have hanswer := answer_resolve resolver s
    obtain ⟨generated, hrecords, hgeneration⟩ := exists_records_vertexShader resolver s
    rw [hrecords]
    generalize (s.resolve resolver).records = answer at *
    generalize (s.vertexShader resolver).result = result at *
    intro r hr
    cases hanswer with
    | accepted hasks => exact absurd hasks (hunasked _)
    | unasked | rejected =>
      cases hgeneration with
      | failed => simp at hr
      | generated _ hlevel =>
        simp only [List.nil_append, List.mem_singleton] at hr
        rw [hr, hlevel]
        decide
  · obtain ⟨generated, hrecords, hgeneration⟩ := exists_records_vertexShader resolver s
    exact ⟨_, generated, rfl, hrecords, answer_resolve resolver s, hgeneration⟩

/-- Blanks and case matter to the resolver, and the answer is on record, also where the opacity is
at fault afterwards. -/
theorem vertexShader_records_of_blank_text :
    let s : Style := ⟨some (.square 2), true, none, none, some .nan, some (.text " Red ")⟩
    let ink : Channels := ⟨1, 1e-4, 1e-5, 1e16⟩
    s.vertexShader (.palette [(" Red ", ink), ("red", .white)] none) =
        s.vertexShader (.palette [(" Red ", ink)] (some "not in the palette")) ∧
      s.vertexShader (.palette [(" Red ", ink)] none) ≠
        s.vertexShader (.palette [("red", ink)] none) ∧
      ({ s with size := none }).vertexShader (.palette [(" Red ", ink)] none) =
        ({ s with size := none }).vertexShader .css ∧
      ∃ r, (s.vertexShader (.palette [(" Red ", ink)] none)).records = [r] ∧ r.level = "TRACE" ∧
        r.message = "resolved color \" Red \" to ColorChannels " ++
          "\x7b r: 1.0, g: 0.0001, b: 1e-5, a: 1e16 \x7d" := by
  intro s ink
  have hasks : s.Asks " Red " := ⟨⟨_, rfl⟩, rfl⟩
  have hunasked (t : String) : ¬({ s with size := none }).Asks t := by
    rintro ⟨⟨_, ⟨⟩⟩, -⟩
  obtain ⟨-, hasked, hrecords⟩ := vertexShader_records s
  obtain ⟨hsame, -⟩ := vertexShader_records { s with size := none }
  refine ⟨(hasked _ hasks _ _).2.mpr (by decide +kernel), ?_, (hsame hunasked _ _).2.1, ?_⟩
  · rw [Ne, (hasked _ hasks _ _).2]
    decide +kernel
  · obtain ⟨answer, generated, -, hrun, hanswer, hgeneration⟩ :=
      hrecords (.palette [(" Red ", ink)] none)
    have hink : Resolver.palette [(" Red ", ink)] none " Red " = .ok ink := by decide +kernel
    have hresult : (s.vertexShader (.palette [(" Red ", ink)] none)).result =
        .error (.nonFinite .opacity .nan) := by decide +kernel
    rw [hresult] at hgeneration
    cases hgeneration
    rw [List.append_nil] at hrun
    cases hanswer with
    | unasked h => exact absurd hasks (h _)
    | rejected h he =>
      rw [h.unique hasks, hink] at he
      cases he
    | accepted h hc hr hlevel hmessage =>
      rw [h.unique hasks, hink] at hc
      cases hc
      refine ⟨_, hrun, hlevel, hmessage.trans ?_⟩
      rw [h.unique hasks]
      decide +kernel

end Style

end PointSymbol
