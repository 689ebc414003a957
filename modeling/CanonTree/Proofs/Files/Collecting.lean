import CanonTree.Files.Inputs
import CanonTree.Proofs.Files.Sorting
import CanonTree.Proofs.Files.Writing

namespace CanonTree.Files

variable {fs fs' : Files} {inputs inputs' found found' : List String} {path : String}
  {dir place q : List String}

theorem innermost_eq (fs : Files) :
    fs.innermost = fs.entries.map (·.dropLast) ++ fs.directories := by
  rw [innermost, entries, List.map_append, List.map_map]
  rfl

theorem fits_spell_of_le (h : place <+: q) (hq : Path.fits (spell path dir q) = true) :
    Path.fits (spell path dir place) = true := by
  have hdrop : place.drop dir.length <+: q.drop dir.length := by
    obtain ⟨rest, rfl⟩ := h
    rw [List.drop_append]
    exact List.prefix_append _ _
  have hle := Path.utf8ByteSize_intercalate_le hdrop
  rw [spell, Path.fits, Path.utf8ByteSize_join, decide_eq_true_eq] at hq ⊢
  omega

theorem isDirAt_of_mem_innermost (h : place ∈ fs.innermost) : fs.isDirAt place = true := by
  have hlast : ∀ q ∈ fs.entries, fs.isDirAt q.dropLast = true := by
    intro q hq
    by_cases hne : q = []
    · exact (isDirAt_iff _ _).2 (.inl (by rw [hne]; rfl))
    · refine (isDirAt_iff _ _).2 (.inr (.inr ⟨q, hq, List.dropLast_prefix q, ?_⟩))
      rw [List.length_dropLast]
      exact Nat.sub_lt (List.length_pos_iff.2 hne) Nat.one_pos
  rw [innermost_eq, List.mem_append, List.mem_map] at h
  obtain ⟨q, hq, rfl⟩ | h := h
  · exact hlast q hq
  · exact (isDirAt_iff _ _).2 (.inr (.inl ⟨place, h, List.prefix_refl place⟩))

theorem exists_innermost (h : fs.isDirAt place = true) (hne : place ≠ []) :
    ∃ q ∈ fs.innermost, place <+: q := by
  obtain rfl | ⟨q, hq, hp⟩ | ⟨q, hq, hp, hlt⟩ := (isDirAt_iff fs place).1 h
  · exact absurd rfl hne
  · rw [innermost_eq]
    exact ⟨q, List.mem_append_right _ hq, hp⟩
  · rw [innermost_eq]
    refine ⟨q.dropLast, List.mem_append_left _ (List.mem_map_of_mem hq), ?_⟩
    · apply List.prefix_of_prefix_length_le hp (List.dropLast_prefix q)
      rw [List.length_dropLast]
      omega

def listable (fs : Files) (input : String) : Bool := fs.isFile input || fs.isOpen input

/-- A walk from the input on gets stuck: at something blocked, or at a directory that it comes to by
a path that is too long. -/
def Stuck (fs : Files) (input : String) : Prop :=
  fs.isFile input = false ∧ ∃ dir, fs.resolve? input = some dir ∧
    ((∃ q ∈ fs.blocked, dir <+: q) ∨ ∃ place, fs.isDirAt place = true ∧
      isProperBeginning dir place = true ∧ Path.fits (spell input dir place) = false)

theorem stuck_iff (fs : Files) (input : String) :
    fs.Stuck input ↔ fs.listable input = false := by
  rw [Stuck, listable, Bool.or_eq_false_iff, isOpen]
  apply and_congr_right
  intro _
  cases fs.resolve? input with
  | none => simp
  | some dir =>
    have hblocked : (∃ q ∈ fs.blocked, dir <+: q) ↔ fs.blocked.any dir.isPrefixOf = true := by
      simp
    have hlong : (∃ place, fs.isDirAt place = true ∧ isProperBeginning dir place = true ∧
        Path.fits (spell input dir place) = false) ↔ ∃ place ∈ fs.innermost,
          isProperBeginning dir place = true ∧ Path.fits (spell input dir place) = false := by
      constructor
      · rintro ⟨place, hdir, hbelow, hfits⟩
        -- the directory lies on the way to an innermost one, whose path is longer still
        obtain ⟨hstart, hlt⟩ := (isProperBeginning_iff dir place).1 hbelow
        obtain ⟨q, hq, hplace⟩ := exists_innermost hdir (by rintro rfl; cases hlt)
        refine ⟨q, hq, (isProperBeginning_iff dir q).2 ⟨hstart.trans hplace, ?_⟩, ?_⟩
        · exact Nat.lt_of_lt_of_le hlt hplace.length_le
        · rw [Bool.eq_false_iff] at hfits ⊢
          exact mt (fits_spell_of_le hplace) hfits
      · rintro ⟨place, hplace, hbelow, hfits⟩
        exact ⟨place, isDirAt_of_mem_innermost hplace, hbelow, hfits⟩
    simp only [Option.some.injEq, exists_eq_left', hblocked, hlong, Option.all_some,
      Bool.and_eq_false_iff, Bool.not_eq_false', List.all_eq_false, Bool.not_eq_true,
      Bool.or_eq_false_iff]

/-- The files an input stands for: itself, or the JSON files below it. -/
def listing (fs : Files) (input : String) : List String :=
  if fs.isFile input then [input] else (fs.below input).filter isJson

theorem expand_of_has {input : String} (h : fs.has input = true) : fs.expand input =
    if fs.listable input then .ok (fs.listing input) else .error (.stuck input) := by
  rw [expand, h, listing, listable, walk?]
  by_cases hfile : fs.isFile input = true
  · simp [hfile]
  · by_cases hopen : fs.isOpen input = true <;> simp [hfile, hopen]

/-- Of inputs that exist the first one that cannot be listed decides. -/
theorem mapM_expand (h : ∀ i ∈ inputs, fs.has i = true) : inputs.mapM fs.expand =
    match inputs.find? fun i => !fs.listable i with
    | some i => .error (.stuck i)
    | none => .ok (inputs.map fs.listing) := by
  induction inputs with
  | nil => rfl
  | cons i is ih =>
    rw [List.mapM_cons, expand_of_has (h i List.mem_cons_self),
      ih fun j hj => h j (List.mem_cons_of_mem i hj), List.find?_cons]
    cases fs.listable i with
    | false => rfl
    | true =>
      cases is.find? fun i => !fs.listable i with
      | none => rfl
      | some j => rfl

theorem collect_of_stuck (before after : List String) {i : String}
    (h : ∀ j ∈ before ++ i :: after, fs.has j = true) (hbefore : ∀ j ∈ before, ¬ fs.Stuck j)
    (hi : fs.Stuck i) : fs.collect (before ++ i :: after) = .error (.stuck i) := by
  have hfirst : (before ++ i :: after).find? (fun j => !fs.listable j) = some i := by
    have hnone : before.find? (fun j => !fs.listable j) = none := by
      simpa [stuck_iff] using hbefore
    rw [List.find?_append, hnone, List.find?_cons, (stuck_iff fs i).1 hi]
    rfl
  rw [collect, mapM_expand h, hfirst]
  rfl

def Named (fs : Files) (inputs : List String) (path : String) : Prop :=
  ∃ i ∈ inputs, path ∈ fs.listing i

/-- The files that the inputs stand for were found, each once and in ascending order. A file that is
named in several spellings has one of them. -/
structure Collected (fs : Files) (inputs found : List String) : Prop where
  collect : fs.collect inputs = .ok found
  ascending : Path.Ascending found
  named : ∀ path ∈ found, fs.Named inputs path
  complete : ∀ path, fs.Named inputs path →
    ∃ q ∈ found, Path.components q = Path.components path

theorem collected (h : ∀ i ∈ inputs, fs.has i = true) (hwalk : ∀ i ∈ inputs, ¬ fs.Stuck i) :
    ∃ found, fs.Collected inputs found := by
  have hnone : inputs.find? (fun i => !fs.listable i) = none := by
    simpa [stuck_iff] using hwalk
  have hcollect : fs.collect inputs = .ok (Path.sortedSet (inputs.map fs.listing).flatten) := by
    rw [collect, mapM_expand h, hnone]
    rfl
  have hnamed : ∀ path, path ∈ (inputs.map fs.listing).flatten ↔ fs.Named inputs path := by
    simp [Named]
  refine ⟨_, hcollect, Path.ascending_sortedSet _, fun path hp => ?_, fun path hp => ?_⟩
  · exact (hnamed path).1 (Path.sortedSet_subset _ hp)
  · exact Path.exists_mem_sortedSet ((hnamed path).2 hp)

theorem Collected.mem_of_spelled (h : fs.Collected inputs found)
    (hspelled : ∀ p q, fs.Named inputs p → fs.Named inputs q →
      Path.components p = Path.components q → p = q) {path : String} :
    path ∈ found ↔ fs.Named inputs path := by
  refine ⟨h.named path, fun hpath => ?_⟩
  obtain ⟨q, hq, hcomponents⟩ := h.complete path hpath
  rwa [← hspelled q path (h.named q hq) hpath hcomponents]

/-- Which files are collected depends on which inputs there are, but for the spellings. -/
theorem Collected.congr (h : fs.Collected inputs found) (h' : fs.Collected inputs' found')
    (hsame : ∀ i, i ∈ inputs' ↔ i ∈ inputs) :
    found'.map Path.components = found.map Path.components ∧
      ((∀ p q, fs.Named inputs p → fs.Named inputs q →
        Path.components p = Path.components q → p = q) → found' = found) := by
  have hnamed : fs.Named inputs' = fs.Named inputs := by
    funext path
    simp only [Named, hsame]
  have hrank : ∀ {is ps : List String}, fs.Collected is ps → ∀ r,
      r ∈ ps.map Path.rank ↔ ∃ path, fs.Named is path ∧ Path.rank path = r := by
    intro is ps hps r
    rw [List.mem_map]
    constructor
    · rintro ⟨path, hpath, rfl⟩
      exact ⟨path, hps.named path hpath, rfl⟩
    · rintro ⟨path, hpath, rfl⟩
      obtain ⟨q, hq, hcomponents⟩ := hps.complete path hpath
      exact ⟨q, hq, Path.rank_eq_iff.2 hcomponents⟩
  constructor
  · apply h'.ascending.components_eq h.ascending
    intro r
    rw [hrank h', hrank h, hnamed]
  · intro hspelled
    apply h'.ascending.eq_of_mem_iff h.ascending
    intro path
    rw [h.mem_of_spelled hspelled, h'.mem_of_spelled (hnamed ▸ hspelled), hnamed]

theorem has_of_read {text : String} (h : fs.read path = .ok text) : fs.has path = true := by
  rw [read] at h
  split at h
  · cases h
  · rename_i hfits
    rw [Bool.not_eq_true', Bool.not_eq_false] at hfits
    split at h
    · rename_i hcontent
      rw [has, hfits, isFile, hcontent]
      simp
    · cases h

/-- The same files in the same directories, but for what is in the file at a place. -/
structure Retouched (place : List String) (fs fs' : Files) : Prop where
  directories : fs'.directories = fs.directories
  blocked : fs'.blocked = fs.blocked
  places : fs'.files.map (·.1) = fs.files.map (·.1)
  elsewhere : ∀ q, q ≠ place → fs'.contentAt? q = fs.contentAt? q

namespace Retouched

theorem isDirAt (h : Retouched place fs fs') (q : List String) :
    fs'.isDirAt q = fs.isDirAt q := by
  rw [Bool.eq_iff_iff, isDirAt_iff, isDirAt_iff, entries, entries, h.directories, h.places,
    h.blocked]

theorem resolve? (h : Retouched place fs fs') (path : String) :
    fs'.resolve? path = fs.resolve? path := resolve?_congr h.isDirAt path

theorem isDir (h : Retouched place fs fs') (path : String) : fs'.isDir path = fs.isDir path := by
  rw [Files.isDir, Files.isDir, h.resolve?]
  congr 1
  exact funext h.isDirAt

theorem isSome_contentAt? (h : Retouched place fs fs') (q : List String) :
    (fs'.contentAt? q).isSome = (fs.contentAt? q).isSome := by
  have hmem : ∀ gs : Files, (gs.contentAt? q).isSome = (gs.files.map (·.1)).any (· = q) := by
    intro gs
    rw [Bool.eq_iff_iff, contentAt?, Option.isSome_map, List.find?_isSome, List.any_map,
      List.any_eq_true]
    rfl
  rw [hmem, hmem, h.places]

theorem isFile (h : Retouched place fs fs') (path : String) :
    fs'.isFile path = fs.isFile path := by
  rw [Files.isFile, Files.isFile, content?, content?, h.resolve?]
  cases fs.resolve? path with
  | none => rfl
  | some q => exact h.isSome_contentAt? q

theorem has (h : Retouched place fs fs') (path : String) : fs'.has path = fs.has path := by
  rw [Files.has, Files.has, h.isDir, h.isFile]

theorem below (h : Retouched place fs fs') (path : String) : fs'.below path = fs.below path := by
  have hmap : ∀ (gs : Files) (d : List String),
      (gs.files.filter fun f => isProperBeginning d f.1).map (fun f => spell path d f.1) =
      ((gs.files.map (·.1)).filter (isProperBeginning d)).map (spell path d) := by
    intro gs d
    rw [List.filter_map, List.map_map]
    rfl
  rw [Files.below, Files.below, h.resolve?]
  cases fs.resolve? path with
  | none => rfl
  | some d =>
    simp only
    rw [hmap, hmap, h.places]

theorem isOpen (h : Retouched place fs fs') (path : String) :
    fs'.isOpen path = fs.isOpen path := by
  have hholders : ∀ gs : Files, gs.files.map (·.1.dropLast) = (gs.files.map (·.1)).map (·.dropLast) :=
    fun gs => (List.map_map ..).symm
  have hinnermost : fs'.innermost = fs.innermost := by
    rw [innermost, innermost, hholders, hholders, h.places, h.blocked, h.directories]
  rw [Files.isOpen, Files.isOpen, h.resolve?, h.blocked, hinnermost]

theorem listable (h : Retouched place fs fs') (input : String) :
    fs'.listable input = fs.listable input := by
  rw [Files.listable, Files.listable, h.isFile, h.isOpen]

theorem collect (h : Retouched place fs fs') (inputs : List String) :
    fs'.collect inputs = fs.collect inputs := by
  have hexpand : fs'.expand = fs.expand := by
    funext input
    rw [expand, expand, walk?, walk?, h.has, h.isFile, h.isOpen, h.below]
  rw [Files.collect, Files.collect, hexpand]

theorem read (h : Retouched place fs fs') {path : String} (hne : fs.resolve? path ≠ some place) :
    fs'.read path = fs.read path := by
  have hcontent : fs'.content? path = fs.content? path := by
    rw [content?, content?, h.resolve?]
    cases hq : fs.resolve? path with
    | none => rfl
    | some q => exact h.elsewhere q fun he => hne (hq.trans (congrArg some he))
  rw [Files.read, Files.read, hcontent, h.isDir]

end Retouched

end CanonTree.Files
