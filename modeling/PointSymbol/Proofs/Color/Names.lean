import PointSymbol.Proofs.Color.Parse
import PointSymbol.Proofs.Text.Spelling

/-!
# Names of colors

The search for a name is a scan of the table with the keyword `transparent` put in front. Every name
is reached by the reader, in any case and with any blanks around it, and may be spelled with `gray`
or with `grey`.
-/

namespace PointSymbol.Color
open Text (Blank Padded Recased)

namespace Keyword

/-- The names with their colors, in the order of a scan. -/
def entries : List (String × Rgba) := ("transparent", .transparent) :: table.toList

/-! ## Scanning -/

variable {name : String} {c : Rgba}

theorem find?_eq_some_iff_mem : find? name = some c ↔ (name, c) ∈ entries := by
  rw [find?_eq_some_iff, entries, List.mem_cons, Prod.mk.injEq, Array.mem_toList_iff]

theorem find?_eq_none_iff : find? name = none ↔ name ≠ "transparent" ∧ ∀ c, (name, c) ∉ table := by
  rw [Option.eq_none_iff_forall_ne_some]
  constructor
  · intro h
    constructor
    · intro hname
      exact h .transparent (find?_eq_some_iff.mpr (.inl ⟨hname, rfl⟩))
    · intro c hmem
      exact h c (find?_eq_some_iff.mpr (.inr hmem))
  · intro h c hc
    obtain ⟨hname, hmem⟩ := h
    rcases find?_eq_some_iff.mp hc with ⟨hc, -⟩ | hc
    · exact hname hc
    · exact hmem c hc

theorem nodup_names : (entries.map Prod.fst).Nodup := by
  rw [entries, List.map_cons, List.nodup_cons]
  constructor
  · intro hmem
    obtain ⟨⟨name, c⟩, h, rfl⟩ := List.mem_map.mp hmem
    exact (names_of_mem_table (Array.mem_toList_iff.mp h)).1 rfl
  · rw [List.nodup_iff_pairwise_ne, List.pairwise_map]
    refine (isChain_of_zip_tail table_increasing).pairwise.imp fun h heq => ?_
    rw [heq] at h
    exact String.lt_irrefl _ h

/-- Where names are distinct, a scan finds every entry. -/
theorem lookup_eq_some_iff_mem {α β : Type} [BEq α] [LawfulBEq α] {entries : List (α × β)} {a : α}
    {b : β} (hnames : (entries.map Prod.fst).Nodup) :
    entries.lookup a = some b ↔ (a, b) ∈ entries := by
  rw [List.lookup_eq_some_iff]
  constructor
  · intro h
    obtain ⟨before, after, hentries, -⟩ := h
    rw [hentries]
    exact List.mem_append_right _ List.mem_cons_self
  · intro h
    obtain ⟨before, after, hentries⟩ := List.append_of_mem h
    refine ⟨before, after, hentries, fun p hp => bne_iff_ne.mpr fun heq => ?_⟩
    rw [hentries, List.map_append, List.nodup_append] at hnames
    exact hnames.2.2 p.1 (List.mem_map_of_mem hp) a (by simp) heq.symm

theorem find?_eq_lookup (name : String) : find? name = entries.lookup name := by
  ext c
  rw [find?_eq_some_iff_mem, lookup_eq_some_iff_mem nodup_names]

end Keyword

/-! ## Spellings of grey -/

/-- Every `gray` becomes `grey`. -/
def greySpelling : List Char → List Char
  | 'g' :: 'r' :: 'a' :: 'y' :: cs => 'g' :: 'r' :: 'e' :: 'y' :: greySpelling cs
  | c :: cs => c :: greySpelling cs
  | [] => []

/-- The texts that `greySpelling` may take to the given one. -/
def spellingsOfGrey : List Char → List (List Char)
  | 'g' :: 'r' :: 'e' :: 'y' :: cs =>
    (spellingsOfGrey ('r' :: 'e' :: 'y' :: cs)).map ('g' :: ·) ++
      (spellingsOfGrey cs).map (['g', 'r', 'a', 'y'] ++ ·)
  | c :: cs => (spellingsOfGrey cs).map (c :: ·)
  | [] => [[]]

theorem cons_mem_spellingsOfGrey {c : Char} {cs ds : List Char} (h : cs ∈ spellingsOfGrey ds) :
    c :: cs ∈ spellingsOfGrey (c :: ds) := by
  have hmem : c :: cs ∈ (spellingsOfGrey ds).map (c :: ·) := List.mem_map.mpr ⟨cs, h, rfl⟩
  rw [spellingsOfGrey.eq_def]
  split
  · next heq =>
    obtain ⟨rfl, rfl⟩ := List.cons.inj heq
    exact List.mem_append_left _ hmem
  · next heq =>
    obtain ⟨rfl, rfl⟩ := List.cons.inj heq
    exact hmem
  · next heq => cases heq

theorem mem_spellingsOfGrey (cs : List Char) : cs ∈ spellingsOfGrey (greySpelling cs) := by
  fun_induction greySpelling cs with
  | case1 cs ih =>
    rw [spellingsOfGrey]
    exact List.mem_append_right _ (List.mem_map.mpr ⟨cs, ih, rfl⟩)
  | case2 c cs hgray ih => exact cons_mem_spellingsOfGrey ih
  | case3 => exact List.mem_singleton.mpr rfl

namespace Keyword

/-- Few names hold either word, and only these are looked up in another spelling. -/
theorem entries_grey : entries.all fun (name, c) =>
    (greySpelling name.toList :: spellingsOfGrey name.toList).all fun cs =>
      cs = name.toList || find? (.ofList cs) = some c := by decide +kernel

variable {cs ds : List Char} {c : Rgba}

theorem find?_of_spelling (h : find? (.ofList cs) = some c)
    (hds : ds ∈ greySpelling cs :: spellingsOfGrey cs) : find? (.ofList ds) = some c := by
  have hentry := List.all_eq_true.mp entries_grey _ (find?_eq_some_iff_mem.mp h)
  simp only [String.toList_ofList] at hentry
  have hspelling := List.all_eq_true.mp hentry ds hds
  rw [Bool.or_eq_true, decide_eq_true_iff, decide_eq_true_iff] at hspelling
  rcases hspelling with hsame | hfind
  · rwa [hsame]
  · exact hfind

/-- Names may be spelled with `gray` or with `grey`. -/
theorem find?_greySpelling (cs : List Char) :
    find? (.ofList (greySpelling cs)) = find? (.ofList cs) := by
  ext c
  constructor
  · intro h
    exact find?_of_spelling h (List.mem_cons_of_mem _ (mem_spellingsOfGrey cs))
  · intro h
    exact find?_of_spelling h List.mem_cons_self

end Keyword

/-! ## Reading names -/

variable {cs : List Char} {c : Rgba}

theorem keywordForm_iff_mem_entries : KeywordForm c cs ↔ (.ofList cs, c) ∈ Keyword.entries := by
  rw [← find?_eq_some_iff_keywordForm, Keyword.find?_eq_some_iff_mem]

/-- A name of the table in any case and among any blanks is read as its color. -/
theorem parse_of_mem_entries {name text : String} (h : (name, c) ∈ Keyword.entries)
    (hcase : Recased name.toList cs) (hblanks : Padded cs text.toList) :
    Rgba.parse text = .ok c := by
  have hname : KeywordForm c name.toList := by
    rwa [keywordForm_iff_mem_entries, String.ofList_toList]
  have hlower := isLower_of_keywordForm hname
  have hmap : name.toList.map Char.toLower = name.toList :=
    Text.map_toLower_eq_self fun d hd => Text.toLower_of_isLower (hlower d hd)
  have htight : Text.Tight name.toList :=
    Text.tight_of_forall fun d hd => Text.isBlank_of_isLower (hlower d hd)
  have hform : normalForm text = name.toList := by
    rw [normalForm, hblanks.trim_eq, ← Text.trim_map_toLower, hcase.map_toLower, hmap,
      Text.trim_eq_self htight]
  rw [parse_eq_ok_iff_read, hform, read_eq_ok_iff]
  exact .inr (.inr hname)

/-- A name is found by the search if a scan finds it, and at most one entry has it. -/
theorem Keyword.find?_eq_scan (name : String) :
    find? name = entries.lookup name ∧
    (∀ c, find? name = some c ↔ name = "transparent" ∧ c = .transparent ∨ (name, c) ∈ table) ∧
    (∀ c, find? name = some c → (entries.map Prod.fst).count name = 1) ∧
    (find? name = none ↔ name ≠ "transparent" ∧ ∀ c, (name, c) ∉ table) ∧
    (∀ (c : Rgba) (cs : List Char) (text : String), (name, c) ∈ entries →
      Recased name.toList cs → Padded cs text.toList → Rgba.parse text = .ok c) ∧
    find? (.ofList (greySpelling name.toList)) = find? name := by
  have hcount (c : Rgba) (h : find? name = some c) : (entries.map Prod.fst).count name = 1 :=
    List.count_eq_one_of_mem nodup_names
      (List.mem_map.mpr ⟨(name, c), find?_eq_some_iff_mem.mp h, rfl⟩)
  refine ⟨find?_eq_lookup name, fun c => find?_eq_some_iff, hcount, find?_eq_none_iff,
    fun c cs text => parse_of_mem_entries, ?_⟩
  rw [find?_greySpelling, String.ofList_toList]

/-- A name that holds `gray`, in mixed case and among blanks. -/
theorem Keyword.find?_eq_scan_of_gray :
    Rgba.parse "\u3000darkSlateGRAY\n" = .ok (.solid 47 79 79) ∧
      find? "darkslategrey" = some (.solid 47 79 79) := by
  obtain ⟨-, -, -, -, hparse, hgrey⟩ := find?_eq_scan "darkslategray"
  have hfind : find? "darkslategray" = some (.solid 47 79 79) := by decide +kernel
  have hspelling : greySpelling "darkslategray".toList = "darkslategrey".toList := by decide
  have hblanks : Padded "darkSlateGRAY".toList "\u3000darkSlateGRAY\n".toList :=
    @Padded.mk ['\u3000'] _ ['\n'] (by simp [Blank]; decide) (by simp [Blank]; decide)
  rw [hspelling, String.ofList_toList, hfind] at hgrey
  exact ⟨hparse _ _ _ (find?_eq_some_iff_mem.mp hfind) (by simp [Recased]) hblanks, hgrey⟩

end PointSymbol.Color
