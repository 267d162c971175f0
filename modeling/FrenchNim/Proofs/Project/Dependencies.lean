import Mathlib
import FrenchNim.Project.Dependencies
import FrenchNim.Proofs.Text.Encoding

namespace FrenchNim.Dependencies

open Relation (ReflTransGen)

/-!
# The dependencies that the search finds

The imports of existing files make a graph over the locations of a file tree,
perhaps with cycles. The search either lists every file that is reachable from
the entry, once and behind what it imports, or it stops at a reachable file that
cannot be read or parsed. The proof says what the search knows between two of
its steps, and that each kind of step keeps it.
-/

section Search

variable (files : FileSystem) (imports : Location → Except Failure (List String))

/-- The first file imports the second one, which exists. -/
def Imports (user used : Location) : Prop :=
  ∃ paths, imports user = .ok paths ∧
    ∃ path ∈ paths, target user path = used ∧ files.holds used = true

/-- The second file can be reached from the first one through imports of existing files. -/
def Reaches (start file : Location) : Prop :=
  ReflTransGen (Imports files imports) start file

/-- The file can be read and parsed. -/
def Usable (file : Location) : Prop :=
  ∃ paths, imports file = .ok paths

/-- A file stands behind everything it imports that does not lead back to it. -/
def InOrder (found : List Location) : Prop :=
  ∀ user ∈ found, ∀ used, Imports files imports user used →
    ¬Reaches files imports used user → [used, user].Sublist found

/-- The list that the search is for. -/
structure Complete (entry : Location) (found : List Location) : Prop where
  usable : ∀ file, Reaches files imports entry file → Usable imports file
  distinct : found.Nodup
  listed : ∀ file, file ∈ found ↔ Reaches files imports entry file ∧ file ≠ entry
  inOrder : InOrder files imports found

/-- What is known of an open file: the imports it has followed were visited. -/
def Follows (visited : List Location) (file : OpenFile) : Prop :=
  ∃ followed, imports file.location = .ok (followed ++ file.imports) ∧
    ∀ path ∈ followed, files.holds (target file.location path) = true →
      target file.location path ∈ visited

/-- What is known between two steps of the search. -/
structure Invariant (entry : Location) (visited found : List Location)
    (stack : List OpenFile) : Prop where
  /-- No file is both listed and open, and none is twice. -/
  distinct : (found ++ stack.map (·.location)).Nodup
  /-- The visited files are the listed and the open ones. -/
  visited_iff : ∀ file, file ∈ visited ↔ file ∈ found ∨ file ∈ stack.map (·.location)
  /-- The entry is the file at the bottom of the stack. -/
  bottom : (stack.map (·.location)).getLast? = some entry
  /-- Every open file is imported by the one below it. -/
  nested : stack.IsChain fun inner outer => Imports files imports outer.location inner.location
  /-- Open files have followed a part of their imports. -/
  opened : ∀ file ∈ stack, Follows files imports visited file
  /-- Listed files have followed all their imports. -/
  closed : ∀ user ∈ found, Usable imports user ∧
    ∀ used, Imports files imports user used → used ∈ visited
  inOrder : InOrder files imports found
  reached : ∀ file ∈ visited, Reaches files imports entry file

end Search

variable {files : FileSystem} {imports : Location → Except Failure (List String)}
  {entry : Location} {visited found : List Location} {stack : List OpenFile}

/-- An open file that has followed all its imports has visited them. -/
theorem Follows.mem_visited
    {location used : Location}
    (follows : Follows files imports visited ⟨location, []⟩)
    (imported : Imports files imports location used) :
    used ∈ visited := by
  obtain ⟨followed, split, seen⟩ := follows
  obtain ⟨paths, known, path, member, rfl, held⟩ := imported
  rw [List.append_nil] at split
  cases split.symm.trans known
  exact seen path member held

theorem Follows.usable
    {file : OpenFile}
    (follows : Follows files imports visited file) :
    Usable imports file.location := by
  obtain ⟨followed, split, -⟩ := follows
  exact ⟨_, split⟩

theorem Follows.mono
    {file : OpenFile}
    {more : List Location}
    (follows : Follows files imports visited file)
    (subset : visited ⊆ more) :
    Follows files imports more file := by
  obtain ⟨followed, split, seen⟩ := follows
  exact ⟨followed, split, fun path member held => subset (seen path member held)⟩

/-- An import is followed once its file is visited or known to be missing. -/
theorem Follows.advance
    {location : Location}
    {path : String}
    {paths : List String}
    (follows : Follows files imports visited ⟨location, path :: paths⟩)
    (done : files.holds (target location path) = true → target location path ∈ visited) :
    Follows files imports visited ⟨location, paths⟩ := by
  obtain ⟨followed, split, seen⟩ := follows
  refine ⟨followed ++ [path], ?_, fun other member held => ?_⟩
  · rw [split, List.append_assoc]
    rfl
  · rcases List.mem_append.mp member with earlier | last
    · exact seen other earlier held
    · cases List.mem_singleton.mp last
      exact done held

/-- The first of the imports that are left is an import of the file. -/
theorem Follows.imports_next
    {location : Location}
    {path : String}
    {paths : List String}
    (follows : Follows files imports visited ⟨location, path :: paths⟩)
    (held : files.holds (target location path) = true) :
    Imports files imports location (target location path) := by
  obtain ⟨followed, split, -⟩ := follows
  exact ⟨_, split, path, by simp, rfl, held⟩

/-- The innermost open file can be reached from all open files. -/
theorem reaches_innermost
    {inner : OpenFile} :
    ∀ {outer : List OpenFile},
      (inner :: outer).IsChain (fun inner outer =>
        Imports files imports outer.location inner.location) →
      ∀ file ∈ inner :: outer, Reaches files imports file.location inner.location
  | [], _, file, member => by
      cases List.mem_singleton.mp member
      exact .refl
  | next :: outer, nested, file, member => by
      obtain ⟨imported, nestedOuter⟩ := List.isChain_cons_cons.mp nested
      rcases List.mem_cons.mp member with rfl | below
      · exact .refl
      · exact (reaches_innermost nestedOuter file below).tail imported

/-- Whether the open files are nested does not depend on the imports that they have left. -/
theorem nested_advance
    {location : Location}
    {path : String}
    {paths : List String}
    (nested : (⟨location, path :: paths⟩ :: stack).IsChain fun inner outer =>
      Imports files imports outer.location inner.location) :
    (⟨location, paths⟩ :: stack).IsChain fun inner outer : OpenFile =>
      Imports files imports outer.location inner.location := by
  cases stack with
  | nil =>
      exact .singleton _
  | cons outer rest =>
      exact List.isChain_cons_cons.mpr (List.isChain_cons_cons.mp nested)

namespace Invariant

/-- What is known when the search starts. -/
theorem start
    {paths : List String}
    (known : imports entry = .ok paths) :
    Invariant files imports entry [entry] [] [⟨entry, paths⟩] where
  distinct := by simp
  visited_iff := by simp
  bottom := rfl
  nested := .singleton _
  opened := List.forall_mem_singleton.mpr ⟨[], known, by simp⟩
  closed := by simp
  inOrder := by simp [InOrder]
  reached := List.forall_mem_singleton.mpr .refl

/-- An import of a missing or visited file is passed over. -/
theorem pass
    {location : Location}
    {path : String}
    {paths : List String}
    (known : Invariant files imports entry visited found (⟨location, path :: paths⟩ :: stack))
    (done : files.holds (target location path) = true → target location path ∈ visited) :
    Invariant files imports entry visited found (⟨location, paths⟩ :: stack) where
  distinct := known.distinct
  visited_iff := known.visited_iff
  bottom := known.bottom
  nested := nested_advance known.nested
  opened := by
    obtain ⟨follows, others⟩ := List.forall_mem_cons.mp known.opened
    exact List.forall_mem_cons.mpr ⟨follows.advance done, others⟩
  closed := known.closed
  inOrder := known.inOrder
  reached := known.reached

/-- A new file is opened. -/
theorem enter
    {location : Location}
    {path : String}
    {paths nextPaths : List String}
    (known : Invariant files imports entry visited found (⟨location, path :: paths⟩ :: stack))
    (held : files.holds (target location path) = true)
    (new : target location path ∉ visited)
    (nextKnown : imports (target location path) = .ok nextPaths) :
    Invariant files imports entry (target location path :: visited) found
      (⟨target location path, nextPaths⟩ :: ⟨location, paths⟩ :: stack) := by
  have follows := known.opened _ List.mem_cons_self
  have imported := follows.imports_next held
  have more : visited ⊆ target location path :: visited := List.subset_cons_self _ _
  refine ⟨?_, ?_, known.bottom, ?_, ?_, ?_, known.inOrder, ?_⟩
  · rw [known.visited_iff, ← List.mem_append] at new
    exact List.perm_middle.nodup_iff.mpr (List.nodup_cons.mpr ⟨new, known.distinct⟩)
  · intro file
    rw [List.mem_cons, known.visited_iff]
    simp only [List.map_cons, List.mem_cons]
    exact or_left_comm
  · exact List.isChain_cons_cons.mpr ⟨imported, nested_advance known.nested⟩
  · obtain ⟨-, others⟩ := List.forall_mem_cons.mp known.opened
    refine List.forall_mem_cons.mpr ⟨⟨[], nextKnown, by simp⟩, List.forall_mem_cons.mpr ⟨?_, ?_⟩⟩
    · exact (follows.mono more).advance fun _ => List.mem_cons_self
    · exact fun file member => (others file member).mono more
  · intro user member
    obtain ⟨usable, seen⟩ := known.closed user member
    exact ⟨usable, fun used uses => more (seen used uses)⟩
  · refine List.forall_mem_cons.mpr ⟨?_, known.reached⟩
    have reachesUser := known.reached location ((known.visited_iff location).mpr (.inr (by simp)))
    exact reachesUser.tail imported

/-- A file that has followed all its imports is listed. -/
theorem leave
    {location : Location}
    {outer : OpenFile}
    (known : Invariant files imports entry visited found (⟨location, []⟩ :: outer :: stack)) :
    Invariant files imports entry visited (found ++ [location]) (outer :: stack) := by
  obtain ⟨follows, others⟩ := List.forall_mem_cons.mp known.opened
  refine ⟨?_, ?_, known.bottom, (List.isChain_cons_cons.mp known.nested).2, others, ?_, ?_,
    known.reached⟩
  · rw [List.append_assoc]
    exact known.distinct
  · intro file
    rw [known.visited_iff, List.mem_append, List.map_cons, List.mem_cons, List.mem_singleton,
      or_assoc]
  · intro user member
    rcases List.mem_append.mp member with earlier | last
    · exact known.closed user earlier
    · cases List.mem_singleton.mp last
      exact ⟨follows.usable, fun used uses => follows.mem_visited uses⟩
  · intro user member used uses noCycle
    rcases List.mem_append.mp member with earlier | last
    · exact (known.inOrder user earlier used uses noCycle).trans (List.sublist_append_left _ _)
    · -- What the file imports is listed already, or it is open and leads back to the file.
      cases List.mem_singleton.mp last
      rcases (known.visited_iff used).mp (follows.mem_visited uses) with listed | isOpen
      · exact (List.singleton_sublist.mpr listed).append (List.Sublist.refl [location])
      · obtain ⟨file, member, rfl⟩ := List.mem_map.mp isOpen
        exact (noCycle (reaches_innermost known.nested file member)).elim

/-- When only the entry is open and has followed all its imports, the list is complete. -/
theorem complete
    {location : Location}
    (known : Invariant files imports entry visited found [⟨location, []⟩]) :
    Complete files imports entry found := by
  cases Option.some.inj known.bottom
  have follows := known.opened _ List.mem_cons_self
  have isVisited : ∀ file, Reaches files imports location file → file ∈ visited := by
    intro file reaches
    induction reaches with
    | refl => exact (known.visited_iff location).mpr (.inr (by simp))
    | tail _ uses seen =>
        rcases (known.visited_iff _).mp seen with listed | isEntry
        · exact (known.closed _ listed).2 _ uses
        · cases List.mem_singleton.mp isEntry
          exact follows.mem_visited uses
  have apart := List.nodup_append.mp known.distinct
  refine ⟨fun file reaches => ?_, apart.1, fun file => ⟨fun listed => ⟨?_, ?_⟩, ?_⟩,
    known.inOrder⟩
  · rcases (known.visited_iff file).mp (isVisited file reaches) with listed | isEntry
    · exact (known.closed file listed).1
    · cases List.mem_singleton.mp isEntry
      exact follows.usable
  · exact known.reached file ((known.visited_iff file).mpr (.inl listed))
  · exact apart.2.2 file listed location (by simp)
  · rintro ⟨reaches, notEntry⟩
    exact ((known.visited_iff file).mp (isVisited file reaches)).resolve_right
      (fun isEntry => notEntry (List.mem_singleton.mp isEntry))

end Invariant

/-- The search lists all dependencies, or it stops at a reachable file that cannot be used. -/
theorem search_outcome
    {log : List LogEntry}
    (known : Invariant files imports entry visited found stack) :
    (∃ all, (search files imports visited found log stack).1 = .ok all ∧
      Complete files imports entry all) ∨
    ∃ failure file, (search files imports visited found log stack).1 = .error failure ∧
      Reaches files imports entry file ∧ imports file = .error failure := by
  fun_induction search files imports visited found log stack with
  | case1 visited found log =>
      cases known.bottom
  | case2 visited found log location =>
      exact .inl ⟨found, rfl, known.complete⟩
  | case3 visited found log location outer rest inductionHypothesis =>
      exact inductionHypothesis known.leave
  | case4 visited found log location path paths rest next held new failure failed =>
      have follows := known.opened _ List.mem_cons_self
      have reaches := known.reached location ((known.visited_iff location).mpr (.inr (by simp)))
      exact .inr ⟨failure, next, rfl, reaches.tail (follows.imports_next held), failed⟩
  | case5 visited found log location path paths rest next held new nextPaths nextKnown
      inductionHypothesis =>
      exact inductionHypothesis (known.enter held new nextKnown)
  | case6 visited found log location path paths rest next held seen inductionHypothesis =>
      exact inductionHypothesis (known.pass fun _ => not_not.mp seen)
  | case7 visited found log location path paths rest next missing inductionHypothesis =>
      exact inductionHypothesis (known.pass fun held => (missing held).elim)

/-! ## Entry files -/

/-- The file can be read, and its content parses. -/
def Parses (normalizer : Normalizer) (files : FileSystem) (file : Location) : Prop :=
  ∃ content program, files.read file = .ok content ∧
    Pipeline.parse normalizer (.ofBytes content) = .ok program

/-- The imports of a file are known if it can be read and parses. -/
theorem usable_importsOf
    {normalizer : Normalizer}
    {file : Location} :
    Usable (importsOf normalizer files) file ↔ Parses normalizer files file := by
  unfold Usable Parses importsOf
  cases read : files.read file with
  | error error =>
      simp
  | ok content =>
      cases parsed : Pipeline.parse normalizer (.ofBytes content) <;> simp [parsed]

/-- What becomes of the search from an entry file. -/
theorem find_outcome
    (normalizer : Normalizer)
    (files : FileSystem)
    (entry : Location) :
    (∃ found, (find normalizer files entry).1 = .ok found ∧
      Complete files (importsOf normalizer files) entry found) ∨
    ∃ failure file, (find normalizer files entry).1 = .error failure ∧
      Reaches files (importsOf normalizer files) entry file ∧
      importsOf normalizer files file = .error failure := by
  unfold find
  cases known : importsOf normalizer files entry with
  | error failure =>
      exact .inr ⟨failure, entry, rfl, .refl, known⟩
  | ok paths =>
      exact search_outcome (.start known)

/-- The search fails if a reachable file does not parse. -/
theorem find_eq_error
    {normalizer : Normalizer}
    {file : Location}
    (reaches : Reaches files (importsOf normalizer files) entry file)
    (broken : ¬Parses normalizer files file) :
    ∃ failure culprit, (find normalizer files entry).1 = .error failure ∧
      Reaches files (importsOf normalizer files) entry culprit ∧
      importsOf normalizer files culprit = .error failure := by
  rcases find_outcome normalizer files entry with ⟨found, -, complete⟩ | failed
  · exact (broken (usable_importsOf.mp (complete.usable file reaches))).elim
  · exact failed

/--
If all reachable files parse, the search lists them without the entry, each once
and behind what it imports outside of cycles. Otherwise it fails for the reason
that one of them fails.
-/
theorem find_lists_reachable
    (normalizer : Normalizer)
    (files : FileSystem)
    (entry : Location) :
    ((∀ file, Reaches files (importsOf normalizer files) entry file →
        Parses normalizer files file) →
      ∃ found, (find normalizer files entry).1 = .ok found ∧ found.Nodup ∧
        (∀ file, file ∈ found ↔
          Reaches files (importsOf normalizer files) entry file ∧ file ≠ entry) ∧
        InOrder files (importsOf normalizer files) found) ∧
    ((∃ file, Reaches files (importsOf normalizer files) entry file ∧
        ¬Parses normalizer files file) →
      ∃ failure culprit, (find normalizer files entry).1 = .error failure ∧
        Reaches files (importsOf normalizer files) entry culprit ∧
        importsOf normalizer files culprit = .error failure) := by
  refine ⟨fun parses => ?_, fun ⟨file, reaches, broken⟩ => find_eq_error reaches broken⟩
  rcases find_outcome normalizer files entry with
    ⟨found, listed, complete⟩ | ⟨failure, file, -, reaches, failed⟩
  · exact ⟨found, listed, complete.distinct, complete.listed, complete.inOrder⟩
  · obtain ⟨paths, known⟩ := usable_importsOf.mpr (parses file reaches)
    cases failed.symm.trans known

/-! ## A tree with a cycle -/

/-- The imports of a file are told by the program that its text is. -/
theorem importsOf_of_text
    {normalizer : Normalizer}
    {location : Location}
    {paths : List String}
    (text : String)
    (isText : files.read location = .ok (textBytes text))
    (parsed : (Pipeline.parse normalizer (.ofString text)).map Program.importPaths = .ok paths) :
    importsOf normalizer files location = .ok paths := by
  have decoded : Source.ofBytes (textBytes text) = .ofString text := by
    rw [textBytes, ← Source.toBytes_ofString, Source.ofBytes_toBytes_ofString]
  rw [importsOf, isText]
  simp only [decoded]
  cases read : Pipeline.parse normalizer (.ofString text) with
  | error failure =>
      rw [read] at parsed
      cases parsed
  | ok program =>
      rw [read] at parsed
      exact parsed

/-- Two files that import each other, and a third one with the given content. -/
def cyclicTree (content : Bytes) : FileSystem :=
  ⟨[(["a"], .file (textBytes "importer x de \"b\"\n") false),
    (["b"], .file (textBytes "importer x de \"c\"\nimporter y de \"a\"\n") false),
    (["c"], .file content false)]⟩

theorem importsOf_cyclicTree_a
    (content : Bytes) :
    importsOf none (cyclicTree content) ["a"] = .ok ["b"] := by
  refine importsOf_of_text "importer x de \"b\"\n" rfl ?_
  cbv

theorem importsOf_cyclicTree_b
    (content : Bytes) :
    importsOf none (cyclicTree content) ["b"] = .ok ["c", "a"] := by
  refine importsOf_of_text "importer x de \"c\"\nimporter y de \"a\"\n" rfl ?_
  cbv

/-- The third file can be reached from the first one. -/
theorem reaches_cyclicTree
    (content : Bytes) :
    Reaches (cyclicTree content) (importsOf none (cyclicTree content)) ["a"] ["c"] := by
  have toB : Imports (cyclicTree content) (importsOf none (cyclicTree content)) ["a"] ["b"] :=
    ⟨_, importsOf_cyclicTree_a content, "b", by simp, by cbv, rfl⟩
  have toC : Imports (cyclicTree content) (importsOf none (cyclicTree content)) ["b"] ["c"] :=
    ⟨_, importsOf_cyclicTree_b content, "c", by simp, by cbv, rfl⟩
  exact (ReflTransGen.single toB).tail toC

/-- The third file may be one that does not parse. -/
theorem not_parses_cyclicTree : ¬Parses none (cyclicTree [0x28]) ["c"] := by
  rw [← usable_importsOf]
  rintro ⟨paths, known⟩
  have failed : (importsOf none (cyclicTree [0x28]) ["c"]).isOk = false := by
    cbv
  rw [known] at failed
  cases failed

/-- No other file can be reached if the third one is empty. -/
theorem mem_of_reaches_cyclicTree
    {file : Location}
    (reaches : Reaches (cyclicTree []) (importsOf none (cyclicTree [])) ["a"] file) :
    file = ["a"] ∨ file = ["b"] ∨ file = ["c"] := by
  induction reaches with
  | refl =>
      exact .inl rfl
  | tail _ uses inductionHypothesis =>
      obtain ⟨paths, known, path, member, rfl, held⟩ := uses
      rcases inductionHypothesis with rfl | rfl | rfl
      · cases (importsOf_cyclicTree_a []).symm.trans known
        cases List.mem_singleton.mp member
        exact .inr (.inl (by cbv))
      · cases (importsOf_cyclicTree_b []).symm.trans known
        simp only [List.mem_cons, List.not_mem_nil, or_false] at member
        rcases member with rfl | rfl
        · exact .inr (.inr (by cbv))
        · exact .inl (by cbv)
      · have empty : importsOf none (cyclicTree []) ["c"] = .ok [] := by
          cbv
        cases empty.symm.trans known
        cases member

/-- The search on a tree with a cycle, with a third file that is empty or does not parse. -/
theorem find_lists_reachable_cyclicTree :
    (∃ found, (find none (cyclicTree []) ["a"]).1 = .ok found ∧
      (["c"] ∈ found ∧ ["a"] ∉ found) ∧
      InOrder (cyclicTree []) (importsOf none (cyclicTree [])) found) ∧
    ∃ failure, (find none (cyclicTree [0x28]) ["a"]).1 = .error failure := by
  constructor
  · have parses : ∀ file, Reaches (cyclicTree []) (importsOf none (cyclicTree [])) ["a"] file →
        Parses none (cyclicTree []) file := by
      intro file reaches
      refine usable_importsOf.mp ?_
      rcases mem_of_reaches_cyclicTree reaches with rfl | rfl | rfl
      · exact ⟨_, importsOf_cyclicTree_a []⟩
      · exact ⟨_, importsOf_cyclicTree_b []⟩
      · exact ⟨[], by cbv⟩
    obtain ⟨found, listed, -, members, inOrder⟩ :=
      (find_lists_reachable none (cyclicTree []) ["a"]).1 parses
    refine ⟨found, listed, ⟨(members ["c"]).mpr ⟨reaches_cyclicTree [], by decide⟩, ?_⟩, inOrder⟩
    exact fun listedEntry => ((members ["a"]).mp listedEntry).2 rfl
  · obtain ⟨failure, -, failed, -⟩ := (find_lists_reachable none (cyclicTree [0x28]) ["a"]).2
      ⟨["c"], reaches_cyclicTree [0x28], not_parses_cyclicTree⟩
    exact ⟨failure, failed⟩

end FrenchNim.Dependencies
