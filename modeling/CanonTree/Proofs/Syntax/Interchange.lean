import CanonTree.Proofs.Json.Written
import CanonTree.Proofs.Syntax.Fields
import CanonTree.Proofs.Syntax.Loading
import CanonTree.Syntax.Document.Writer

namespace CanonTree.Syntax

open Json (Found Lexeme Problem Raw Reader Value)

theorem found_int32 (n : Int32) : (Raw.of (.number n.toInt)).found = .ok (.integer n.toInt) :=
  Json.found_of (Int.le_trans (by decide) n.minValue_le_toInt) (Int.le_trans n.toInt_le (by decide))

theorem take_int32 (n : Int32) : Reader.Take.int32 (.integer n.toInt) = .ok n := by
  change (if Int32.minValue.toInt ≤ n.toInt ∧ n.toInt ≤ Int32.maxValue.toInt then
    Except.ok n.toInt else _ : Except Problem Int).map Int32.ofInt = .ok n
  rw [if_pos ⟨n.minValue_le_toInt, n.toInt_le⟩]
  exact congrArg Except.ok (Int32.ofInt_toInt n)

theorem found_string (s : String) : (Raw.of (.string s)).found = .ok (.string s) := by
  change (Lexeme.of s).text.map Found.string = _
  rw [Json.text_of]
  rfl

theorem Role.ofSpelling?_spelling (r : Role) : Role.ofSpelling? r.spelling = some r := by
  cases r <;> rfl

theorem read_role (room : Nat) (r : Role) :
    Role.read room (Raw.of (.string r.spelling)) = .ok r := by
  simp [Role.read, Reader.variant, Raw.of, Json.text_of, r.ofSpelling?_spelling, bind, Except.bind]

def Attrs.found (a : Attrs) : List (String × Found) :=
  (match a.token with
    | some t => [("token", .string t)]
    | none => []) ++
  (if a.isStatic then [("is_static", .boolean true)] else []) ++
  (if a.isOnDemand then [("is_on_demand", .boolean true)] else []) ++
  (if a.isInterface then [("is_interface", .boolean true)] else []) ++
  (if a.isDefault then [("is_default", .boolean true)] else [])

/-- What is left out is what is assumed. -/
theorem takeAttrs_found (a : Attrs) : ∃ fs, takeAttrs a.found {} = .ok fs ∧ fs.attrs = a := by
  obtain ⟨token, s, o, i, d⟩ := a
  cases token <;> cases s <;> cases o <;> cases i <;> cases d <;> exact ⟨_, rfl, rfl⟩

theorem ofMembers_append (ms ns : List (String × Value)) :
    Raw.ofMembers (ms ++ ns) = Raw.ofMembers ms ++ Raw.ofMembers ns := by
  induction ms with
  | nil => rfl
  | cons m ms ih => simp [Raw.ofMembers, ih]

theorem readFields_other {key : String} (hkey : key ∉ ownKeys) {v : Raw} {found : Found}
    (room : Nat) (hv : v.checked room = .ok found) (ms : List (Lexeme × Raw)) (f : NodeFields) :
    readFields room ((.of key, v) :: ms) f =
      readFields room ms { f with others := (key, found) :: f.others } := by
  simp only [ownKeys, List.mem_cons, List.not_mem_nil, or_false, not_or] at hkey
  rw [readFields, Json.text_of]
  simp only [bind, Except.bind]
  split <;> simp_all

theorem readFields_flag {name : String} (hname : name ∉ ownKeys) (b : Bool) (room : Nat)
    (ms : List (Lexeme × Raw)) (f : NodeFields) :
    readFields room (Raw.ofMembers (flag name b) ++ ms) f =
      readFields room ms
        { f with others := (if b then [(name, .boolean true)] else []) ++ f.others } := by
  cases b with
  | false => rfl
  | true => exact readFields_other hname room rfl ms f

theorem readFields_attrs (a : Attrs) (room : Nat) (ms : List (Lexeme × Raw)) (f : NodeFields) :
    readFields room (Raw.ofMembers a.members ++ ms) f =
      readFields room ms { f with others := a.found.reverse ++ f.others } := by
  have hrev : ∀ (b : Bool) (m : String × Found),
      (if b then [m] else []).reverse = if b then [m] else [] := by
    intro b m
    cases b <;> rfl
  obtain ⟨token, s, o, i, d⟩ := a
  simp only [Attrs.members, Attrs.found, ofMembers_append, List.append_assoc, List.reverse_append,
    hrev]
  cases token with
  | none =>
    change readFields room (Raw.ofMembers (flag "is_static" s) ++ _) f = _
    rw [readFields_flag (by decide), readFields_flag (by decide), readFields_flag (by decide),
      readFields_flag (by decide)]
    rfl
  | some t =>
    have ht : (Raw.of (.string t)).checked room = .ok (.string t) := found_string t
    change readFields room ((.of "token", Raw.of (.string t)) ::
      (Raw.ofMembers (flag "is_static" s) ++ _)) f = _
    rw [readFields_other (by decide) room ht, readFields_flag (by decide),
      readFields_flag (by decide), readFields_flag (by decide), readFields_flag (by decide)]
    rfl

def DocNode.fields (d : DocNode) : NodeFields where
  kind := some d.kind
  start := some d.span.start
  length := some d.span.length
  role := some d.role

theorem readFields_members (d : DocNode) (room : Nat) (ms : List (Lexeme × Raw)) :
    readFields room (Raw.ofMembers d.members ++ ms) {} =
      readFields room ms { d.fields with others := d.attrs.found.reverse } := by
  have hattrs := readFields_attrs d.attrs room ms d.fields
  rw [show d.fields.others = [] from rfl, List.append_nil] at hattrs
  rw [DocNode.members, ofMembers_append, List.append_assoc, ← hattrs]
  simp [Raw.ofMembers, readFields, Json.text_of, found_string, found_int32, take_int32, read_role,
    Reader.Take.string, once, bind, Except.bind, DocNode.fields]

theorem finish_fields (d : DocNode) (cs : List (Rose DocNode)) :
    NodeFields.finish { d.fields with
      others := d.attrs.found.reverse
      children := if cs.isEmpty then none else some cs } = .ok (.node d cs) := by
  obtain ⟨fs, hfs, hattrs⟩ := takeAttrs_found d.attrs
  simp [NodeFields.finish, DocNode.fields, Json.present, hfs, hattrs, bind, Except.bind, pure,
    Except.pure]
  cases cs <;> rfl

theorem readFields_children {v : Raw} {found : Except Problem (List (Rose DocNode))} (room : Nat)
    (hv : readChildren room v = found) (f : NodeFields) (hf : f.children = none) :
    readFields room [(.of "children", v)] f =
      found.map fun cs => { f with children := some cs } := by
  subst hv
  cases hc : readChildren room v <;>
    simp [readFields, Json.text_of, once, hf, hc, bind, Except.bind, Except.map]

theorem of_nodeValue (d : DocNode) (cs : List (Rose DocNode)) :
    Raw.of (nodeValue (.node d cs)) = .object (Raw.ofMembers d.members ++
      if cs = [] then [] else [(.of "children", .array (Raw.ofItems (nodeValues cs)) .closed)])
      .closed := by
  cases cs with
  | nil => simp [nodeValue, Raw.of]
  | cons c cs => simp [nodeValue, nodeValues, Raw.of, ofMembers_append, Raw.ofMembers]

mutual
/-- A node is read if there is room for a list and an object on each of its levels but the first,
and for an object on the first. -/
theorem readNode_of : ∀ (r : Rose DocNode) (room : Nat),
    readNode room (Raw.of (nodeValue r)) =
      if 2 * r.height ≤ room + 1 then .ok r else .error .malformed
  | .node d cs, 0 => by
    have hn : ¬ 2 * (Rose.node d cs).height ≤ 0 + 1 := by
      simp only [Rose.height]
      omega
    rw [if_neg hn, of_nodeValue, readNode]
    rfl
  | .node d [], room + 1 => by
    have hn : 2 * (Rose.node d []).height ≤ room + 1 + 1 := by
      simp only [Rose.height, Rose.heights]
      omega
    rw [if_pos hn, of_nodeValue, readNode]
    change (readFields room (Raw.ofMembers d.members ++ []) {} >>= fun f => f.finish) = _
    rw [readFields_members]
    exact finish_fields d []
  | .node d (c :: cs), room + 1 => by
    have hchildren := readFields_children room (readChildren_of c cs room)
      { d.fields with others := d.attrs.found.reverse } rfl
    rw [of_nodeValue, readNode]
    change (readFields room (Raw.ofMembers d.members ++ [(.of "children", _)]) {} >>= fun f =>
      f.finish) = _
    rw [readFields_members, hchildren]
    by_cases hcs : 2 * Rose.heights (c :: cs) ≤ room
    · have hn : 2 * (Rose.node d (c :: cs)).height ≤ room + 1 + 1 := by
        simp only [Rose.height]
        omega
      rw [if_pos hcs, if_pos hn]
      exact finish_fields d (c :: cs)
    · have hn : ¬ 2 * (Rose.node d (c :: cs)).height ≤ room + 1 + 1 := by
        simp only [Rose.height]
        omega
      rw [if_neg hcs, if_neg hn]
      rfl

theorem readChildren_of : ∀ (c : Rose DocNode) (cs : List (Rose DocNode)) (room : Nat),
    readChildren room (.array (Raw.ofItems (nodeValues (c :: cs))) .closed) =
      if 2 * Rose.heights (c :: cs) ≤ room then .ok (c :: cs) else .error .malformed
  | c, cs, 0 => by
    have hc := c.height_pos
    have hn : ¬ 2 * Rose.heights (c :: cs) ≤ 0 := by
      simp only [Rose.heights]
      omega
    rw [if_neg hn, readChildren]
    rfl
  | c, cs, room + 1 => by
    rw [readChildren]
    change (readNodes room (Raw.ofItems (nodeValues (c :: cs))) >>= fun cs => pure cs) = _
    rw [readNodes_of (c :: cs) room, bind_pure]

theorem readNodes_of : ∀ (cs : List (Rose DocNode)) (room : Nat),
    readNodes room (Raw.ofItems (nodeValues cs)) =
      if 2 * Rose.heights cs ≤ room + 1 then .ok cs else .error .malformed
  | [], room => by
    rw [if_pos (by simp [Rose.heights])]
    rfl
  | c :: cs, room => by
    have hmax : 2 * Rose.heights (c :: cs) ≤ room + 1 ↔
        2 * c.height ≤ room + 1 ∧ 2 * Rose.heights cs ≤ room + 1 := by
      simp only [Rose.heights]
      omega
    rw [nodeValues, Raw.ofItems, readNodes, readNode_of c room, readNodes_of cs room]
    by_cases hc : 2 * c.height ≤ room + 1
    · by_cases hcs : 2 * Rose.heights cs ≤ room + 1
      · rw [if_pos hc, if_pos hcs, if_pos (hmax.2 ⟨hc, hcs⟩)]
        rfl
      · rw [if_pos hc, if_neg hcs, if_neg fun h => hcs (hmax.1 h).2]
        rfl
    · rw [if_neg hc, if_neg fun h => hc (hmax.1 h).1]
      rfl
end

namespace Document

/-- A written document is read as it was if its levels fit the limit, two lists or objects to each,
and refused otherwise. -/
theorem read_write (d : Document) :
    Document.read d.write = if d.root.height ≤ 63 then .ok d else .error .malformed := by
  have hread : documentRecord.read Json.maxDepth (Raw.of d.value) =
      (readNode 126 (Raw.of (nodeValue d.root))).map fun r => ⟨d.source, r⟩ := by
    simp only [Document.value, Raw.of, Raw.ofMembers]
    cases hr : readNode 126 (Raw.of (nodeValue d.root)) <;>
      simp [Json.Record.read, Json.Record.readMembers, documentRecord, Json.text_of, Raw.found,
        Reader.Take.string, Json.maxDepth, Json.present, Json.orProblem, Json.Ending.problem?, hr,
        bind, Except.bind, pure, Except.pure, Except.map]
  have hlimit : 2 * d.root.height ≤ 126 + 1 ↔ d.root.height ≤ 63 := by omega
  rw [Document.read, Reader.run, Document.write, Json.read_compact]
  change (documentRecord.read Json.maxDepth (Raw.of d.value) >>= fun d => pure d) = _
  rw [bind_pure, hread, readNode_of]
  simp only [hlimit]
  split <;> rfl

end Document

namespace Tree

/-- A tree that a builder makes is made again from its text if no path down it is too long, and the
text is refused as malformed otherwise. -/
theorem ofJson_write {source : String} {calls : List Builder.Call} {t : Tree}
    (h : ((Builder.ofSource source).run calls).build = .ok t) :
    ofJson (Document.ofTree t).write =
      if ∀ p ∈ t.trunk.paths, p.length ≤ 63 then .ok t else .error (.json .malformed) := by
  obtain ⟨-, r, hr⟩ := Builder.shaped_of_build h
  have hheight : (Document.ofTree t).root.height = t.trunk.height := Rose.height_map _ _
  rw [ofJson, Document.read_write, hheight]
  by_cases hp : t.trunk.height ≤ 63
  · rw [if_pos hp, if_pos (Rose.height_le.1 hp)]
    exact Document.toTree_ofTree hr
  · rw [if_neg hp, if_neg fun hpaths => hp (Rose.height_le.2 hpaths)]
    rfl

def tower (v : Node) (n : Nat) : Rose Node := Nat.repeat (fun r => .node v [r]) n (.node v [])

def towerCalls (v : Node) (n : Nat) : List Builder.Call :=
  List.replicate n (.start v) ++ .leaf v :: List.replicate n .finish

def quotedWord : Node where
  kind := .stringLiteral
  role := .expression
  span := ⟨-2147483648, 2147483647⟩
  attrs := { token := some "\"\\\n\x01é", isDefault := true }

theorem height_tower (v : Node) (n : Nat) : (tower v n).height = n + 1 := by
  induction n with
  | zero => rfl
  | succ n ih =>
    change max (tower v n).height 0 + 1 = n + 1 + 1
    omega

set_option maxRecDepth 2000 in
/-- The longest path that fits and the shortest that does not. -/
theorem ofJson_write_tower :
    (∃ t, ((Builder.ofSource "é").run (towerCalls quotedWord 62)).build = .ok t ∧
      ofJson (Document.ofTree t).write = .ok t) ∧
    ∃ t, ((Builder.ofSource "é").run (towerCalls quotedWord 63)).build = .ok t ∧
      ofJson (Document.ofTree t).write = .error (.json .malformed) := by
  have hwrite : ∀ (n : Nat) (t : Tree),
      ((Builder.ofSource "é").run (towerCalls quotedWord n)).build = .ok t →
      t.Shaped (tower quotedWord n) → ofJson (Document.ofTree t).write =
        if n + 1 ≤ 63 then .ok t else .error (.json .malformed) := by
    intro n t hbuild hshape
    rw [ofJson_write hbuild, hshape.trunk]
    simp only [← Rose.height_le, Rose.height_number, height_tower]
  exact ⟨⟨_, rfl, hwrite 62 _ rfl ⟨rfl, rfl⟩⟩, ⟨_, rfl, hwrite 63 _ rfl ⟨rfl, rfl⟩⟩⟩

end Tree

end CanonTree.Syntax
