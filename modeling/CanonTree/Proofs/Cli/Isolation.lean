import CanonTree.Cli.Run
import CanonTree.Proofs.Canon.Recovery
import CanonTree.Proofs.Conversion.Lines
import CanonTree.Proofs.Files.Collecting

namespace CanonTree.Cli

variable {c : OutputConfig} {fs fs' : Files} {found : List String} {place : List String}

def printed (c : OutputConfig) (headers : Bool) : String × Except Failure Canon.Tree → String
  | (path, .ok t) => block c headers path t
  | (_, .error _) => ""

def complaint? (fs : Files) : String × Except Failure Canon.Tree → Option String
  | (_, .ok _) => none
  | (path, .error f) => some ("❌ " ++ describe fs path f)

/-- To the standard output everything is delivered; no file is written and nothing can stop it. -/
theorem deliver_standardOutput (headers : Bool)
    (results : List (String × Except Failure Canon.Tree)) (p : Progress) :
    deliver c (.standardOutput headers) results p =
      ({ files := p.files
         stdout := p.stdout ++ String.join (results.map (printed c headers))
         notes := p.notes ++ results.filterMap (complaint? p.files)
         failed := p.failed + (results.filterMap (complaint? p.files)).length }, none) := by
  induction results generalizing p with
  | nil => simp [deliver]
  | cons r rest ih =>
    obtain ⟨path, result⟩ := r
    cases result with
    | ok t =>
      have hnone : complaint? p.files (path, .ok t) = none := rfl
      have hprinted : printed c headers (path, .ok t) = block c headers path t := rfl
      simp only [deliver, Target.path?, ih]
      simp [hprinted, hnone, String.append_assoc]
    | error f =>
      have hsome : complaint? p.files (path, .error f) = some ("❌ " ++ describe p.files path f) :=
        rfl
      have hprinted : printed c headers (path, .error f) = "" := rfl
      simp only [deliver, ih]
      simp [hprinted, hsome, Nat.add_assoc, Nat.add_comm 1]

def share (fs : Files) (c : OutputConfig) (headers : Bool) (path : String) : String :=
  printed c headers (path, generateFile fs path)

def fails (fs : Files) (path : String) : Bool := (generateFile fs path).toOption.isNone

def complaints (fs : Files) (found : List String) : List String :=
  found.filterMap fun path => complaint? fs (path, generateFile fs path)

/-- What stands on the standard output for a tree: its dump, below its path if there are several
files, or its JSON value. -/
structure Rendered (c : OutputConfig) (headers : Bool) (path : String) (t : Canon.Tree)
    (s : String) : Prop where
  text : c.format = .text → s = (if headers then "\n" ++ path ++ "\n" ++
    String.ofList (List.replicate path.utf8ByteSize '=') ++ "\n" else "") ++ t.dump c.positions
  pretty : c.format = .json → c.pretty = true → s = (t.json c.positions).pretty ++ "\n"
  compact : c.format = .json → c.pretty = false → s = (t.json c.positions).compact ++ "\n"
  rows : t.dump c.positions = Text.joinLines ((t.rose.levels 0).map (Canon.row c.positions))
  faithful : Canon.Faithful t

theorem rendered_block (c : OutputConfig) (headers : Bool) (path : String) {t : Canon.Tree}
    (h : t.LaidOut) : Rendered c headers path t (block c headers path t) where
  text hc := by
    rw [block, render, hc]
    simp [header]
  pretty hc hp := by
    simp [block, render, hc, hp]
  compact hc hp := by
    simp [block, render, hc, hp]
  rows := Canon.dump_eq_joinLines t c.positions
  faithful := h.faithful

theorem laidOut_of_generateFile {path : String} {t : Canon.Tree}
    (h : generateFile fs path = .ok t) : t.LaidOut := by
  obtain ⟨text, -, hgenerate⟩ := bind_eq_ok.1 h
  cases hrefused : generate text with
  | error e =>
    rw [hrefused] at hgenerate
    cases hgenerate
  | ok u =>
    rw [hrefused] at hgenerate
    cases hgenerate
    obtain ⟨parsed, -, hconvert⟩ := bind_eq_ok.1 hrefused
    exact (Conversion.laidOut_of_convert hconvert).1

/-- The outcome is what each of the files by itself makes of it. -/
structure Isolated (fs : Files) (c : OutputConfig) (found : List String) (o : Outcome) : Prop where
  stdout : o.stdout = String.join (found.map (share fs c (1 < found.length)))
  empty : ∀ path ∈ found, fails fs path = true → share fs c (1 < found.length) path = ""
  rendered : ∀ path ∈ found, ∀ t, generateFile fs path = .ok t →
    Rendered c (1 < found.length) path t (share fs c (1 < found.length) path)
  failed_iff : o.exit ≠ 0 ↔ ∃ path ∈ found, fails fs path = true
  report : o.exit ≠ 0 → o.exit = 1 ∧ o.notes = complaints fs found ++
    [fatal s!"{found.countP (fails fs)} of {found.length} file(s) failed to convert"]
  files : o.files = fs

theorem share_of_fails (c : OutputConfig) (headers : Bool) {path : String}
    (h : fails fs path = true) : share fs c headers path = "" := by
  rw [fails] at h
  rw [share]
  cases hgenerate : generateFile fs path with
  | error f => rfl
  | ok t =>
    rw [hgenerate] at h
    cases h

theorem rendered_share (c : OutputConfig) (headers : Bool) {path : String} {t : Canon.Tree}
    (h : generateFile fs path = .ok t) :
    Rendered c headers path t (share fs c headers path) := by
  rw [share, h]
  exact rendered_block c headers path (laidOut_of_generateFile h)

theorem length_complaints (fs : Files) (found : List String) :
    (complaints fs found).length = found.countP (fails fs) := by
  rw [complaints, List.length_filterMap_eq_countP]
  apply List.countP_congr
  intro path _
  rw [fails]
  cases generateFile fs path <;> simp [complaint?, Except.toOption]

variable {time : String} {args inputs inputs' : List String} {format : Option Format}
  {config : Option String} {settled : Config}

def delivered (fs : Files) (c : OutputConfig) (found : List String) : Progress where
  files := fs
  stdout := String.join (found.map (share fs c (1 < found.length)))
  notes := complaints fs found
  failed := found.countP (fails fs)

theorem run_of_collect
    (hargs : Command.ofArgs? args = some (.convert inputs none format config))
    (hc : settings fs config format = .ok settled) (hfound : fs.collect inputs = .ok found)
    (hne : found ≠ []) :
    run fs time args = conclude time found.length (delivered fs settled.output found) none := by
  have hdeliver : deliver settled.output (.standardOutput (1 < found.length))
      (found.map fun path => (path, generateFile fs path)) { files := fs } =
      (delivered fs settled.output found, none) := by
    rw [deliver_standardOutput, List.map_map, List.filterMap_map]
    simp only [String.empty_append, List.nil_append, Nat.zero_add, delivered, ← length_complaints]
    rfl
  have hsome : found.isEmpty = false := by simpa using hne
  have hconvert : convert fs inputs none format config = .ok fun time =>
      conclude time found.length (delivered fs settled.output found) none := by
    simp only [convert, hc, hfound, Except.mapError, prepare, bind, Except.bind, hsome, hdeliver]
    rfl
  simp only [run, hargs, execute, hconvert, outcome]

theorem isolated_of_collect
    (hargs : Command.ofArgs? args = some (.convert inputs none format config))
    (hc : settings fs config format = .ok settled) (hfound : fs.collect inputs = .ok found) :
    Isolated fs settled.output found (run fs time args) := by
  have hempty : ∀ path ∈ found, fails fs path = true →
      share fs settled.output (1 < found.length) path = "" := fun _ _ h => share_of_fails _ _ h
  have hrendered : ∀ path ∈ found, ∀ t, generateFile fs path = .ok t →
      Rendered settled.output (1 < found.length) path t
        (share fs settled.output (1 < found.length) path) := fun _ _ _ h => rendered_share _ _ h
  by_cases hne : found = []
  · subst hne
    have hrun : run fs time args = ⟨0, "", ["⚠️ No native tree dumps found"], fs⟩ := by
      simp only [run, hargs, execute, convert, hc, hfound]
      rfl
    rw [hrun]
    exact ⟨rfl, hempty, hrendered, by simp, by simp, rfl⟩
  · rw [run_of_collect hargs hc hfound hne, conclude]
    by_cases hfailed : found.countP (fails fs) = 0
    · have hzero : (delivered fs settled.output found).failed = 0 := hfailed
      have hnone := List.countP_eq_zero.1 hfailed
      simp only [hzero, if_true]
      exact ⟨rfl, hempty, hrendered, by simpa using hnone, by simp, rfl⟩
    · have hpos : (delivered fs settled.output found).failed ≠ 0 := hfailed
      have hsome := List.countP_pos_iff.1 (Nat.pos_of_ne_zero hfailed)
      simp only [hpos, if_false]
      exact ⟨rfl, hempty, hrendered, by simpa using hsome, fun _ => ⟨rfl, rfl⟩, rfl⟩

theorem run_of_stuck {i : String}
    (hargs : Command.ofArgs? args = some (.convert inputs none format config))
    (hc : settings fs config format = .ok settled)
    (hcollect : fs.collect inputs = .error (.stuck i)) :
    run fs time args = ⟨1, "", [fatal s!"Failed to walk {i}"], fs⟩ := by
  simp only [run, hargs, execute, convert, hc, hcollect]
  rfl

theorem share_retouched (h : Files.Retouched place fs fs') (c : OutputConfig) (headers : Bool)
    {path : String} (hne : fs.resolve? path ≠ some place) :
    share fs' c headers path = share fs c headers path := by
  rw [share, share, generateFile, generateFile, h.read hne]

/-- A conversion without output, of inputs that exist and under settings that can be read. If a walk
gets stuck, nothing is converted and the first such input is told. Otherwise the files that were
collected make the outcome, each by itself: this is kept when the content of a file changes, and
other inputs make no difference to it if they are the same ones. -/
theorem isolated_of_run
    (hargs : Command.ofArgs? args = some (.convert inputs none format config))
    (hc : settings fs config format = .ok settled) (hin : ∀ i ∈ inputs, fs.has i = true)
    (time : String) :
    (∀ before i after, inputs = before ++ i :: after → (∀ j ∈ before, ¬ fs.Stuck j) → fs.Stuck i →
      run fs time args = ⟨1, "", [fatal s!"Failed to walk {i}"], fs⟩) ∧
    ((∀ i ∈ inputs, ¬ fs.Stuck i) → ∃ found, fs.Collected inputs found ∧
      Isolated fs settled.output found (run fs time args) ∧
      (∀ place fs', Files.Retouched place fs fs' → settings fs' config format = .ok settled →
        Isolated fs' settled.output found (run fs' time args) ∧
        ∀ path ∈ found, fs.resolve? path ≠ some place →
          share fs' settled.output (1 < found.length) path =
            share fs settled.output (1 < found.length) path) ∧
      ∀ inputs', (∀ i, i ∈ inputs' ↔ i ∈ inputs) → ∃ found', fs.Collected inputs' found' ∧
        found'.map Path.components = found.map Path.components ∧
        ((∀ p q, fs.Named inputs p → fs.Named inputs q →
          Path.components p = Path.components q → p = q) → found' = found)) := by
  constructor
  · rintro before i after rfl hbefore hi
    exact run_of_stuck hargs hc (Files.collect_of_stuck before after hin hbefore hi)
  intro hwalk
  obtain ⟨found, hfound⟩ := Files.collected hin hwalk
  refine ⟨found, hfound, isolated_of_collect hargs hc hfound.collect, ?_, ?_⟩
  · intro place fs' hretouched hc'
    have hcollect : fs'.collect inputs = .ok found := by
      rw [hretouched.collect, hfound.collect]
    exact ⟨isolated_of_collect hargs hc' hcollect, fun path _ hne =>
      share_retouched hretouched settled.output _ hne⟩
  · intro inputs' hsame
    obtain ⟨found', hfound'⟩ := Files.collected (fun i hi => hin i ((hsame i).1 hi))
      fun i hi => hwalk i ((hsame i).1 hi)
    exact ⟨found', hfound', hfound.congr hfound' hsame⟩

/-- Settings, and two files in a directory; the text of the first is left open. -/
def pair (first : String) : Files where
  files := [(["in", "a.json"], first.toUTF8),
    (["in", "b.json"], "\x7b\"root\":\x7b\"kind\":\"Modifier\"\x7d\x7d".toUTF8),
    (["brief.toml"], "[output]\npretty = false\ninclude_positions = false\n".toUTF8)]

def soundPair : Files := pair "\x7b\"root\":\x7b\"kind\":\"Block\"\x7d\x7d"

def cutPair : Files := pair "\x7b\"root\":\x7b\"kind\":\"Block\""

/-- A link in the directory leads nowhere. -/
def brokenPair : Files := { soundPair with blocked := [["in", "link"]] }

theorem retouched_pair (first second : String) :
    Files.Retouched ["in", "a.json"] (pair first) (pair second) := by
  refine ⟨rfl, rfl, rfl, fun q hq => ?_⟩
  simp [pair, Files.contentAt?, Ne.symm hq]

def pairArgs : List String := ["convert", "in", "-f", "text"]

def briefArgs : List String := ["convert", "in", "--config=brief.toml"]

def brief : OutputConfig where
  format := .json
  pretty := false
  positions := false

theorem isolated_of_run_pair : ∃ found, soundPair.Collected ["in"] found ∧
    Isolated soundPair { format := .text } found (run soundPair "1ms" pairArgs) ∧
    Isolated cutPair { format := .text } found (run cutPair "1ms" pairArgs) ∧
    (∀ path ∈ found, soundPair.resolve? path ≠ some ["in", "a.json"] →
      share cutPair { format := .text } (1 < found.length) path =
        share soundPair { format := .text } (1 < found.length) path) ∧
    (run soundPair "1ms" pairArgs).stdout = "\nin/a.json\n=========\nBLOCK [-1,-1]\n" ++
      "\nin/b.json\n=========\nMODIFIER [-1,-1]\n" ∧
    (run cutPair "1ms" pairArgs).stdout = "\nin/b.json\n=========\nMODIFIER [-1,-1]\n" ∧
    (run cutPair "1ms" pairArgs).notes = ["❌ in/a.json: the JSON text ends too early",
      "Error: 1 of 2 file(s) failed to convert"] ∧
    soundPair.Collected ["in", "in"] found ∧
    Isolated soundPair brief found (run soundPair "1ms" briefArgs) ∧
    (run soundPair "1ms" briefArgs).stdout =
      "\x7b\"type\":\"BLOCK\",\"legacy_code\":8,\"label\":\"\",\"children\":[]\x7d\n" ++
      "\x7b\"type\":\"MODIFIER\",\"legacy_code\":83,\"label\":\"\",\"children\":[]\x7d\n" ∧
    run brokenPair "1ms" pairArgs = ⟨1, "", ["Error: Failed to walk in"], brokenPair⟩ := by
  have hargs : Command.ofArgs? pairArgs = some (.convert ["in"] none (some .text) none) := by
    decide +kernel
  have hbriefArgs : Command.ofArgs? briefArgs =
      some (.convert ["in"] none none (some "brief.toml")) := by
    decide +kernel
  have hsettings : ∀ fs : Files,
      settings fs none (some .text) = .ok { output := { format := .text } } := fun _ => rfl
  have hbrief : settings soundPair (some "brief.toml") none = .ok { output := brief } := by
    decide +kernel
  have hin : ∀ i ∈ ["in"], soundPair.has i = true := by decide +kernel
  have hwalk : ∀ i ∈ ["in"], ¬ soundPair.Stuck i := by
    simp only [Files.stuck_iff]
    decide +kernel
  obtain ⟨found, hfound, hsound, hretouched, hrepeated⟩ :=
    (isolated_of_run hargs (hsettings soundPair) hin "1ms").2 hwalk
  obtain ⟨hcut, hshare⟩ := hretouched ["in", "a.json"] cutPair (retouched_pair _ _)
    (hsettings cutPair)
  obtain ⟨found', hfound', -, heq⟩ := hrepeated ["in", "in"] (by simp)
  have hlisting : soundPair.listing "in" = ["in/a.json", "in/b.json"] := by decide +kernel
  have hspelled : ∀ p ∈ soundPair.listing "in", ∀ q ∈ soundPair.listing "in",
      Path.components p = Path.components q → p = q := by
    rw [hlisting]
    decide +kernel
  have hnamed : ∀ p q, soundPair.Named ["in"] p → soundPair.Named ["in"] q →
      Path.components p = Path.components q → p = q := by
    rintro p q ⟨i, hi, hp⟩ ⟨j, hj, hq⟩
    cases List.mem_singleton.1 hi
    cases List.mem_singleton.1 hj
    exact hspelled p hp q hq
  rw [heq hnamed] at hfound'
  obtain ⟨same, hsame, hshort, -⟩ := (isolated_of_run hbriefArgs hbrief hin "1ms").2 hwalk
  cases hsame.collect.symm.trans hfound.collect
  have hstuck : brokenPair.Stuck "in" := by
    rw [Files.stuck_iff]
    decide +kernel
  have hbroken := (isolated_of_run hargs (hsettings brokenPair) (by decide +kernel) "1ms").1 [] "in"
    [] rfl (by simp) hstuck
  exact ⟨found, hfound, hsound, hcut, hshare, by decide +kernel, by decide +kernel,
    by decide +kernel, hfound', hshort, by decide +kernel, hbroken⟩

/-- A path that stands still before it comes to the directory. -/
def winding : Nat → String
  | 0 => "in"
  | n + 1 => "." ++ "/" ++ winding n

theorem utf8ByteSize_winding (n : Nat) : (winding n).utf8ByteSize = 2 * n + 2 := by
  induction n with
  | zero => rfl
  | succ n ih =>
    rw [winding, String.utf8ByteSize_append, String.utf8ByteSize_append, ih]
    change 1 + 1 + (2 * n + 2) = 2 * (n + 1) + 2
    omega

theorem pieces_winding (n : Nat) :
    Path.pieces (winding n) = List.replicate n "." ++ ["in"] := by
  induction n with
  | zero => decide
  | succ n ih => rw [winding, Path.pieces_append_slash, ih, Path.pieces_of_no_slash (by decide)]; rfl

theorem components_winding (n : Nat) :
    Path.components (winding (n + 1)) = [.current, .normal "in"] := by
  have hstay : ∀ k, Path.ofPieces (List.replicate k "." ++ ["in"]) = [.normal "in"] := by
    intro k
    induction k with
    | zero => rfl
    | succ k ih => exact ih
  rw [Path.components, pieces_winding, List.replicate_succ, List.cons_append]
  exact congrArg (Path.Component.current :: ·) (hstay n)

theorem resolve?_winding {fs : Files} (h : fs.isDirAt ["in"] = true) (n : Nat) :
    fs.resolve? (winding (n + 1)) = some ["in"] := by
  have hne : (winding (n + 1)).isEmpty = false := by
    rw [winding]
    simp
  rw [Files.resolve?, hne, components_winding]
  have hfollow : fs.follow [.current, .normal "in"] [] = some ["in"] := rfl
  rw [if_neg (by simp), hfollow]
  simp [h]

theorem ofArgs?_winding (n : Nat) : Command.ofArgs? ["convert", winding (n + 1)] =
    some (.convert [winding (n + 1)] none none none) := by
  have hchars : (winding (n + 1)).toList = '.' :: '/' :: (winding n).toList := by
    rw [winding, String.toList_append, String.toList_append]
    rfl
  have hgiven : readGiven [.output, .format, .config] [winding (n + 1)] {} =
      some { positionals := [winding (n + 1)] } := by
    rw [readGiven]
    simp only [hchars]
    rw [readGiven]
    rfl
  have hfront : Command.ofArgs? ["convert", winding (n + 1)] =
      commandNamed? "convert" [winding (n + 1)] := by
    rw [Command.ofArgs?, readFront]
    have hname : "convert".toList = ['c', 'o', 'n', 'v', 'e', 'r', 't'] := by decide
    simp only [hname]
    rfl
  rw [hfront, commandNamed?, hgiven]
  rfl

def deepText : String := "\x7b\"root\":\x7b\"kind\":\"Block\"\x7d\x7d"

/-- A file that converts, and beside it a directory with a long name. -/
def deepFiles : Files where
  files := [(["in", "a.json"], deepText.toUTF8)]
  directories := [["in", String.ofList (List.replicate 60 'n')]]

theorem plain_deep : Path.Plain "a.json" := ⟨by decide, by decide, by decide, by decide⟩

variable {path : String}

theorem stuck_deep (h : deepFiles.resolve? path = some ["in"]) (hlong : 4035 < path.utf8ByteSize) :
    deepFiles.Stuck path := by
  refine ⟨?_, ["in"], h, .inr ⟨["in", String.ofList (List.replicate 60 'n')], ?_, ?_, ?_⟩⟩
  · rw [Files.isFile, Files.content?, h]
    decide
  · decide
  · decide
  · have hname : ("/".intercalate (["in", String.ofList (List.replicate 60 'n')].drop
        ["in"].length)).utf8ByteSize = 60 := by
      decide +kernel
    obtain ⟨hle, -⟩ := Path.utf8ByteSize_join_bounds path
      ("/".intercalate (["in", String.ofList (List.replicate 60 'n')].drop ["in"].length))
    rw [hname] at hle
    rw [Files.spell, Path.fits, Path.limit, decide_eq_false_iff_not]
    omega

theorem listing_deep (h : deepFiles.resolve? path = some ["in"]) :
    deepFiles.listing path = [Path.join path "a.json"] := by
  have hne : path ≠ "" := by
    rintro rfl
    cases h
  have hjson : Files.isJson (Path.join path "a.json") = true := by
    rw [Files.isJson, Path.extension?, Path.fileName?, Path.components_join hne plain_deep,
      List.getLast?_concat]
    decide
  have hfile : deepFiles.isFile path = false := by
    rw [Files.isFile, Files.content?, h]
    decide
  have hbelow : deepFiles.below path = [Path.join path "a.json"] := by
    rw [Files.below, h]
    rfl
  rw [Files.listing, hfile, hbelow]
  simp [hjson]

theorem not_fails_deep (h : deepFiles.resolve? path = some ["in"])
    (hshort : path.utf8ByteSize < 4089) : fails deepFiles (Path.join path "a.json") = false := by
  have hfits : Path.fits (Path.join path "a.json") = true := by
    obtain ⟨-, hle⟩ := Path.utf8ByteSize_join_bounds path "a.json"
    have hname : "a.json".utf8ByteSize = 6 := by decide
    rw [hname] at hle
    rw [Path.fits, Path.limit, decide_eq_true_eq]
    omega
  have hcontent : deepFiles.content? (Path.join path "a.json") = some deepText.toUTF8 := by
    rw [Files.content?, Files.resolve?_join h plain_deep]
    rfl
  have htext : String.fromUTF8? deepText.toUTF8 = some deepText := by
    decide +kernel
  have hread : deepFiles.read (Path.join path "a.json") = .ok deepText := by
    rw [Files.read, hfits, hcontent]
    simp only [Bool.not_true, Bool.false_eq_true, if_false, htext]
  have hgenerate : (generate deepText).toOption.any (fun _ => true) = true := by
    decide +kernel
  obtain ⟨t, ht, -⟩ := exists_ok_of_any hgenerate
  have hfile : generateFile deepFiles (Path.join path "a.json") = .ok t :=
    bind_eq_ok.2 ⟨deepText, by rw [hread]; rfl, by rw [ht]; rfl⟩
  rw [fails, hfile]
  rfl

/-- A run that gets stuck fails although no file does. -/
theorem not_isolated_of_run :
    Command.ofArgs? ["convert", winding 2020] = some (.convert [winding 2020] none none none) ∧
    settings deepFiles none none = .ok {} ∧ deepFiles.has (winding 2020) = true ∧
    deepFiles.listing (winding 2020) = [Path.join (winding 2020) "a.json"] ∧
    fails deepFiles (Path.join (winding 2020) "a.json") = false ∧
    (run deepFiles "1ms" ["convert", winding 2020]).stdout = "" ∧
    ∀ found, ¬ Isolated deepFiles {} found (run deepFiles "1ms" ["convert", winding 2020]) := by
  have hargs := ofArgs?_winding 2019
  have hresolve := resolve?_winding (show deepFiles.isDirAt ["in"] = true by decide) 2019
  have hsize := utf8ByteSize_winding 2020
  generalize winding 2020 = path at hargs hresolve hsize ⊢
  have hsettings : settings deepFiles none none = .ok {} := rfl
  have hhas : deepFiles.has path = true := by
    have hdir : deepFiles.isDir path = true := by
      rw [Files.isDir, hresolve]
      decide
    rw [Files.has, hdir, Path.fits, hsize]
    simp [Path.limit]
  have hcollect := Files.collect_of_stuck [] [] (by simpa using hhas) (by simp)
    (stuck_deep hresolve (by omega))
  have hrun : run deepFiles "1ms" ["convert", path] =
      ⟨1, "", [fatal s!"Failed to walk {path}"], deepFiles⟩ :=
    run_of_stuck hargs hsettings hcollect
  refine ⟨hargs, hsettings, hhas, listing_deep hresolve, not_fails_deep hresolve (by omega), ?_,
    fun found h => ?_⟩
  · rw [hrun]
  have hexit : (run deepFiles "1ms" ["convert", path]).exit ≠ 0 := by
    rw [hrun]
    exact Nat.one_ne_zero
  -- a complaint about the file that fails would stand before the last note, but there is only one
  have hfails := List.countP_pos_iff.2 (h.failed_iff.1 hexit)
  have hnotes := congrArg List.length (h.report hexit).2
  rw [hrun, List.length_append, length_complaints] at hnotes
  simp only [List.length_singleton] at hnotes
  omega

end CanonTree.Cli
