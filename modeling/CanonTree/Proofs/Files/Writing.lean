import CanonTree.Files.Tree
import CanonTree.Proofs.Files.Naming

namespace CanonTree.Files

open CanonTree.Path (Component Plain)

variable {fs fs' : Files} {dir name : String} {place d : List String}

theorem follow_append (fs : Files) (cs ds : List Component) (place : List String) :
    fs.follow (cs ++ ds) place = (fs.follow cs place).bind (fs.follow ds) := by
  induction cs generalizing place with
  | nil => rfl
  | cons c cs ih =>
    rw [List.cons_append, follow, follow, ih]
    split <;> rfl

theorem not_asksForDirectory_join (hdir : dir ≠ "") (h : Plain name) :
    asksForDirectory (Path.join dir name) = false := by
  have hslash := Path.not_endsWith_join hdir h (w := "") (by simp) h.not_empty
  have hcurrent := Path.not_endsWith_join hdir h (w := ".") (by decide) h.not_current
  have hparent := Path.not_endsWith_join hdir h (w := "..") (by decide) h.not_parent
  have hlit : "/" ++ "" = "/" ∧ "/" ++ "." = "/." ∧ "/" ++ ".." = "/.." := by decide
  rw [hlit.1] at hslash
  rw [hlit.2.1] at hcurrent
  rw [hlit.2.2] at hparent
  simp [asksForDirectory, hslash, hcurrent, hparent]

theorem resolve?_join (h : fs.resolve? dir = some d) (hname : Plain name) :
    fs.resolve? (Path.join dir name) = some (d ++ [name]) := by
  have hdir : dir ≠ "" := by
    rintro rfl
    cases h
  have hfollow : fs.follow (Path.components dir) [] = some d := by
    rw [resolve?, if_neg (by simpa using hdir)] at h
    cases hf : fs.follow (Path.components dir) [] with
    | none =>
      rw [hf] at h
      cases h
    | some e =>
      rw [hf] at h
      simp only [Option.bind_eq_bind, Option.bind_some] at h
      split at h
      · cases h
      · exact h
  have hne : (Path.join dir name).isEmpty = false := by
    obtain ⟨before, hjoin, -⟩ := Path.exists_join name hdir
    have : Path.join dir name ≠ "" := by
      rw [hjoin]
      intro he
      have := congrArg String.toList he
      simp [Path.toList_slash] at this
    simpa using this
  rw [resolve?, hne, if_neg (by simp), Path.components_join hdir hname, follow_append, hfollow]
  simp only [Option.bind_some, follow, step, Option.bind_eq_bind,
    not_asksForDirectory_join hdir hname]
  simp

theorem isProperBeginning_iff (a b : List String) :
    isProperBeginning a b = true ↔ a <+: b ∧ a.length < b.length := by
  simp [isProperBeginning]

def entries (fs : Files) : List (List String) := fs.files.map (·.1) ++ fs.blocked

theorem isDirAt_iff (fs : Files) (place : List String) : fs.isDirAt place = true ↔
    place = [] ∨ (∃ q ∈ fs.directories, place <+: q) ∨
      ∃ q ∈ fs.entries, place <+: q ∧ place.length < q.length := by
  have hentries : fs.entries.any (isProperBeginning place) =
      (fs.files.any (isProperBeginning place ·.1) || fs.blocked.any (isProperBeginning place)) := by
    rw [entries, List.any_append, List.any_map]
    rfl
  rw [isDirAt, Bool.or_assoc, ← hentries]
  simp [isProperBeginning_iff, or_assoc]

theorem follow_congr (h : ∀ q, fs'.isDirAt q = fs.isDirAt q) (cs : List Component)
    (place : List String) : fs'.follow cs place = fs.follow cs place := by
  induction cs generalizing place with
  | nil => rfl
  | cons c cs ih => rw [follow, follow, h, ih]

theorem resolve?_congr (h : ∀ q, fs'.isDirAt q = fs.isDirAt q) (path : String) :
    fs'.resolve? path = fs.resolve? path := by
  simp only [resolve?, follow_congr h, h]

/-- `fs'` is `fs` with a file written at a place; the directories are the same. -/
structure Written (fs fs' : Files) (place : List String) (content : String) : Prop where
  isDirAt : ∀ q, fs'.isDirAt q = fs.isDirAt q
  here : fs'.contentAt? place = some content.toUTF8
  elsewhere : ∀ q, q ≠ place → fs'.contentAt? q = fs.contentAt? q

def put (fs : Files) (place : List String) (bytes : ByteArray) : Files :=
  { fs with files := fs.files.filter (·.1 ≠ place) ++ [(place, bytes)] }

end CanonTree.Files
