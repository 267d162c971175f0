import Mathlib
import FrenchNim.Files.FileSystem

namespace FrenchNim

/-!
# Where paths lead

A path is split at its slashes, and its parts are followed one by one. Cleaning
a path takes parts away that lead nowhere, so the clean path leads to the same
place. What a path adds to a location are plain names.
-/

/-! ## The parts of a path -/

/-- A text has at least one part. -/
theorem splitSlashes_ne_nil
    (text : List Char) :
    splitSlashes text ≠ [] := by
  cases text with
  | nil =>
      simp [splitSlashes]
  | cons c rest =>
      simp only [splitSlashes]
      split
      · simp
      · split <;> simp

/-- A character that is no slash belongs to the first part. -/
theorem splitSlashes_cons
    {c : Char}
    {rest part : List Char}
    {parts : List (List Char)}
    (isOther : c ≠ '/')
    (isSplit : splitSlashes rest = part :: parts) :
    splitSlashes (c :: rest) = (c :: part) :: parts := by
  simp [splitSlashes, isOther, isSplit]

/-- No part of a path holds a slash. -/
theorem not_mem_of_mem_splitSlashes
    {text part : List Char}
    (member : part ∈ splitSlashes text) :
    '/' ∉ part := by
  induction text generalizing part with
  | nil =>
      cases List.mem_singleton.mp member
      simp
  | cons c rest inductionHypothesis =>
      by_cases isSlash : c = '/'
      · rw [splitSlashes, if_pos isSlash] at member
        rcases List.mem_cons.mp member with rfl | isLater
        · simp
        · exact inductionHypothesis isLater
      · obtain ⟨first, others, isSplit⟩ := List.exists_cons_of_ne_nil (splitSlashes_ne_nil rest)
        rw [splitSlashes_cons isSlash isSplit] at member
        rw [isSplit] at inductionHypothesis
        rcases List.mem_cons.mp member with rfl | isLater
        · simp only [List.mem_cons, not_or]
          exact ⟨Ne.symm isSlash, inductionHypothesis List.mem_cons_self⟩
        · exact inductionHypothesis (List.mem_cons_of_mem _ isLater)

/-- At a slash, the parts are those before it and those behind it. -/
theorem splitSlashes_append_slash
    (first second : List Char) :
    splitSlashes (first ++ '/' :: second) = splitSlashes first ++ splitSlashes second := by
  induction first with
  | nil =>
      simp [splitSlashes]
  | cons c rest inductionHypothesis =>
      by_cases isSlash : c = '/'
      · simp [splitSlashes, isSlash, inductionHypothesis]
      · obtain ⟨part, parts, isSplit⟩ := List.exists_cons_of_ne_nil (splitSlashes_ne_nil rest)
        rw [isSplit] at inductionHypothesis
        rw [List.cons_append, splitSlashes_cons isSlash isSplit,
          splitSlashes_cons isSlash inductionHypothesis]
        rfl

/-- A text without slashes goes to the end of the last part. -/
theorem splitSlashes_append
    (text : List Char)
    {ending : List Char}
    (unbroken : '/' ∉ ending) :
    ∃ parts part, splitSlashes text = parts ++ [part] ∧
      splitSlashes (text ++ ending) = parts ++ [part ++ ending] := by
  induction text with
  | nil =>
      refine ⟨[], [], rfl, ?_⟩
      induction ending with
      | nil =>
          rfl
      | cons c rest inductionHypothesis =>
          obtain ⟨isOther, isUnbroken⟩ := List.ne_and_not_mem_of_not_mem_cons unbroken
          exact splitSlashes_cons (Ne.symm isOther) (inductionHypothesis isUnbroken)
  | cons c rest inductionHypothesis =>
      obtain ⟨parts, part, isSplit, isLonger⟩ := inductionHypothesis
      by_cases isSlash : c = '/'
      · exact ⟨[] :: parts, part, by simp [splitSlashes, isSlash, isSplit],
          by simp [splitSlashes, isSlash, isLonger]⟩
      · cases parts with
        | nil =>
            exact ⟨[], c :: part, splitSlashes_cons isSlash isSplit,
              splitSlashes_cons isSlash isLonger⟩
        | cons head tail =>
            exact ⟨(c :: head) :: tail, part, splitSlashes_cons isSlash isSplit,
              splitSlashes_cons isSlash isLonger⟩

/-- No part of a path holds a slash. -/
theorem not_mem_of_mem_pathParts
    {path part : String}
    (member : part ∈ pathParts path) :
    '/' ∉ part.toList := by
  obtain ⟨characters, isPart, rfl⟩ := List.mem_map.mp member
  rw [String.toList_ofList]
  exact not_mem_of_mem_splitSlashes isPart

/-- Two paths with a slash between them have the parts of both. -/
theorem pathParts_append_slash
    (first second : String) :
    pathParts (first ++ "/" ++ second) = pathParts first ++ pathParts second := by
  simp [pathParts, String.toList_append, splitSlashes_append_slash]

/-- A text without slashes goes to the end of the last part. -/
theorem pathParts_append
    (path : String)
    {ending : String}
    (unbroken : '/' ∉ ending.toList) :
    ∃ parts part, pathParts path = parts ++ [part] ∧
      pathParts (path ++ ending) = parts ++ [part ++ ending] := by
  obtain ⟨parts, part, isSplit, isLonger⟩ := splitSlashes_append path.toList unbroken
  refine ⟨parts.map String.ofList, String.ofList part, ?_, ?_⟩
  · simp [pathParts, isSplit]
  · simp [pathParts, String.toList_append, isLonger, String.ofList_append]

/-- A name without a slash is one part. -/
theorem pathParts_of_unbroken
    {name : String}
    (unbroken : '/' ∉ name.toList) :
    pathParts name = [name] := by
  obtain ⟨parts, part, isEmpty, isName⟩ := pathParts_append "" unbroken
  have noParts : ([""] : List String) = parts ++ [part] := isEmpty
  cases parts with
  | nil =>
      cases noParts
      simpa using isName
  | cons head tail =>
      simp at noParts

/-- Parts with slashes between them are found again. -/
theorem pathParts_intercalate
    {parts : List String}
    (nonempty : parts ≠ [])
    (unbroken : ∀ part ∈ parts, '/' ∉ part.toList) :
    pathParts ("/".intercalate parts) = parts := by
  induction parts with
  | nil =>
      exact (nonempty rfl).elim
  | cons part rest inductionHypothesis =>
      obtain ⟨isUnbroken, others⟩ := List.forall_mem_cons.mp unbroken
      cases rest with
      | nil =>
          rw [String.intercalate_singleton, pathParts_of_unbroken isUnbroken]
      | cons next rest =>
          rw [String.intercalate_cons_cons, pathParts_append_slash,
            pathParts_of_unbroken isUnbroken, inductionHypothesis (by simp) others]
          rfl

/-! ## Clean paths -/

namespace CleanPath

/-- A part that a clean path may have. -/
structure IsPart (part : String) : Prop where
  nonempty : part ≠ ""
  leads : part ≠ "."
  unbroken : '/' ∉ part.toList

/-- All parts are parts that a clean path may have. -/
def AreParts (parts : List String) : Prop :=
  ∀ part ∈ parts, IsPart part

variable {rooted : Bool} {parts : List String} {part : String} {start : Location}

/-- One more step leaves proper parts. -/
theorem AreParts.step
    (areParts : AreParts parts)
    (unbroken : '/' ∉ part.toList) :
    AreParts (step rooted parts part) := by
  unfold CleanPath.step
  split
  · exact areParts
  · rename_i leads
    rw [not_or] at leads
    have isPart : AreParts [part] := List.forall_mem_singleton.mpr ⟨leads.1, leads.2, unbroken⟩
    have above : AreParts [".."] := List.forall_mem_singleton.mpr ⟨by decide, by decide, by decide⟩
    split
    · split
      · split
        · simp [AreParts]
        · exact above
      · split
        · exact List.forall_mem_append.mpr ⟨areParts, above⟩
        · exact fun other member => areParts other (List.mem_of_mem_dropLast member)
    · exact List.forall_mem_append.mpr ⟨areParts, isPart⟩

/-- Adding a part to a clean path leads where the part leads from there. -/
theorem foldl_step
    (areParts : AreParts parts)
    (atRoot : rooted = true → start = []) :
    (step rooted parts part).foldl Location.step start =
      (parts.foldl Location.step start).step part := by
  unfold step
  split
  · rename_i leadsNowhere
    rw [Location.step, if_pos leadsNowhere]
  · split
    · rename_i isAbove
      subst isAbove
      split
      · rename_i noLast
        rw [List.getLast?_eq_none_iff] at noLast
        subst noLast
        cases rooted with
        | true =>
            rw [atRoot rfl]
            rfl
        | false =>
            rfl
      · rename_i last isLast
        obtain ⟨front, rfl⟩ := List.getLast?_eq_some_iff.mp isLast
        split
        · rw [List.foldl_append]
          rfl
        · -- The last part was a name, so a step upwards takes it away.
          rename_i isName
          have isPart := areParts last (by simp)
          rw [List.dropLast_concat, List.foldl_append]
          simp [Location.step, isPart.nonempty, isPart.leads, isName, Location.parent]
    · rw [List.foldl_append]
      rfl

/-- Cleaning parts changes nothing about where they lead. -/
theorem foldl_foldl_step
    (rooted : Bool)
    (start : Location)
    {read : List String}
    (areParts : AreParts read)
    (unbroken : ∀ part ∈ parts, '/' ∉ part.toList)
    (atRoot : rooted = true → start = []) :
    AreParts (parts.foldl (step rooted) read) ∧
      (parts.foldl (step rooted) read).foldl Location.step start =
        parts.foldl Location.step (read.foldl Location.step start) := by
  induction parts generalizing read with
  | nil =>
      exact ⟨areParts, rfl⟩
  | cons part rest inductionHypothesis =>
      obtain ⟨isUnbroken, others⟩ := List.forall_mem_cons.mp unbroken
      obtain ⟨areClean, leads⟩ := inductionHypothesis (areParts.step isUnbroken) others
      refine ⟨areClean, ?_⟩
      rw [List.foldl_cons, leads, foldl_step areParts atRoot]
      rfl

/-- The parts of a clean path lead where its text leads. -/
theorem AreParts.foldl_pathParts
    (areParts : AreParts parts)
    (start : Location) :
    (pathParts ("/".intercalate parts)).foldl Location.step start =
      parts.foldl Location.step start := by
  by_cases noParts : parts = []
  · subst noParts
    rfl
  · rw [pathParts_intercalate noParts fun part member => (areParts part member).unbroken]

/-- Proper parts make a relative path. -/
theorem AreParts.isRooted_intercalate
    (areParts : AreParts parts) :
    isRooted ("/".intercalate parts) = false := by
  cases parts with
  | nil =>
      rfl
  | cons part rest =>
      have isPart := areParts part List.mem_cons_self
      have starts : ("/".intercalate (part :: rest)).toList.head? = part.toList.head? := by
        have nonempty : part.toList ≠ [] :=
          fun isEmpty => isPart.nonempty (String.toList_eq_nil_iff.mp isEmpty)
        obtain ⟨c, others, characters⟩ := List.exists_cons_of_ne_nil nonempty
        cases rest <;> simp [String.intercalate_cons_cons, String.toList_append, characters]
      rw [isRooted, starts, decide_eq_false_iff_not]
      exact fun isSlash => isPart.unbroken (List.mem_of_mem_head? isSlash)

end CleanPath

namespace Location

/-- A clean path leads to the same place. -/
theorem follow_clean
    (working : Location)
    (path : String) :
    working.follow (CleanPath.clean path) = working.follow path := by
  have unbroken : ∀ part ∈ pathParts path, '/' ∉ part.toList :=
    fun part member => not_mem_of_mem_pathParts member
  have noParts : CleanPath.AreParts [] := by simp [CleanPath.AreParts]
  unfold follow CleanPath.clean
  cases rooted : isRooted path with
  | true =>
      obtain ⟨areParts, leads⟩ :=
        CleanPath.foldl_foldl_step true [] noParts unbroken fun _ => rfl
      have isRooted : isRooted ("/" ++ "/".intercalate
          ((pathParts path).foldl (CleanPath.step true) [])) = true := by
        simp [FrenchNim.isRooted, String.toList_append]
      have split := pathParts_append_slash "" ("/".intercalate
        ((pathParts path).foldl (CleanPath.step true) []))
      rw [String.empty_append] at split
      simp only [if_true, isRooted]
      rw [split, List.foldl_append]
      exact (areParts.foldl_pathParts []).trans leads
  | false =>
      obtain ⟨areParts, leads⟩ :=
        CleanPath.foldl_foldl_step false working noParts unbroken (by simp)
      simp only [Bool.false_eq_true, if_false]
      split
      · rename_i isEmpty
        rw [List.isEmpty_iff.mp isEmpty] at leads
        exact leads
      · rw [areParts.isRooted_intercalate, if_neg Bool.false_ne_true]
        exact (areParts.foldl_pathParts working).trans leads

/-! ## Plain names -/

/-- A name that stands for itself in a path. -/
structure IsName (name : String) : Prop where
  isPart : CleanPath.IsPart name
  notAbove : name ≠ ".."

instance (name : String) : Decidable (IsName name) :=
  decidable_of_iff (name ≠ "" ∧ name ≠ "." ∧ '/' ∉ name.toList ∧ name ≠ "..")
    ⟨fun ⟨nonempty, leads, unbroken, notAbove⟩ => ⟨⟨nonempty, leads, unbroken⟩, notAbove⟩,
      fun ⟨⟨nonempty, leads, unbroken⟩, notAbove⟩ => ⟨nonempty, leads, unbroken, notAbove⟩⟩

/-- All names on the way are plain. -/
def Plain (location : Location) : Prop :=
  ∀ name ∈ location, IsName name

instance (location : Location) : Decidable location.Plain :=
  inferInstanceAs (Decidable (∀ name ∈ location, IsName name))

variable {location working : Location} {name path : String}

/-- A name leads one directory further down. -/
theorem step_of_isName
    (isName : IsName name)
    (location : Location) :
    location.step name = location ++ [name] := by
  simp [step, isName.isPart.nonempty, isName.isPart.leads, isName.notAbove]

/-- The parent of a plain location is plain. -/
theorem Plain.parent
    (plain : location.Plain) :
    location.parent.Plain :=
  fun name member => plain name (List.mem_of_mem_dropLast member)

/-- A step without a slash leads from a plain location to another one. -/
theorem Plain.step
    (plain : location.Plain)
    (unbroken : '/' ∉ name.toList) :
    (location.step name).Plain := by
  unfold Location.step
  split
  · exact plain
  · rename_i leads
    rw [not_or] at leads
    split
    · exact plain.parent
    · rename_i notAbove
      have isName : Plain [name] :=
        List.forall_mem_singleton.mpr ⟨⟨leads.1, leads.2, unbroken⟩, notAbove⟩
      exact List.forall_mem_append.mpr ⟨plain, isName⟩

theorem Plain.foldl_step
    {parts : List String}
    (plain : location.Plain)
    (unbroken : ∀ part ∈ parts, '/' ∉ part.toList) :
    Plain (parts.foldl Location.step location) := by
  induction parts generalizing location with
  | nil =>
      exact plain
  | cons part rest inductionHypothesis =>
      obtain ⟨isUnbroken, others⟩ := List.forall_mem_cons.mp unbroken
      exact inductionHypothesis (plain.step isUnbroken) others

/-- Paths lead from plain locations to plain locations. -/
theorem Plain.follow
    (plain : working.Plain)
    (path : String) :
    (working.follow path).Plain := by
  refine foldl_step ?_ fun part member => not_mem_of_mem_pathParts member
  split
  · simp [Plain]
  · exact plain

/-- The last part of a plain location is a name. -/
theorem Plain.isName_name
    (plain : location.Plain)
    (notRoot : location ≠ []) :
    IsName location.name := by
  rw [name, List.getLast?_eq_some_getLast notRoot]
  exact plain _ (List.getLast_mem notRoot)

/-- A location that is not the root has a directory and a name. -/
theorem parent_append_name
    (notRoot : location ≠ []) :
    location.parent ++ [location.name] = location := by
  rw [name, List.getLast?_eq_some_getLast notRoot]
  exact List.dropLast_append_getLast notRoot

@[simp] theorem name_append
    (location : Location)
    (name : String) :
    Location.name (location ++ [name]) = name := by
  simp [Location.name]

@[simp] theorem parent_append
    (location : Location)
    (name : String) :
    Location.parent (location ++ [name]) = location := by
  simp [Location.parent]

/-- A directory contains what begins with its location. -/
theorem contains_eq_true_iff :
    working.contains location = true ↔ working <+: location :=
  List.isPrefixOf_iff_prefix

/-- A path without a slash is relative. -/
theorem isRooted_of_unbroken
    (unbroken : '/' ∉ path.toList) :
    isRooted path = false := by
  rw [isRooted, decide_eq_false_iff_not]
  exact fun isSlash => unbroken (List.mem_of_mem_head? isSlash)

/-- A name leads into the directory it is followed from. -/
theorem follow_of_isName
    (isName : IsName name)
    (location : Location) :
    location.follow name = location ++ [name] := by
  have unbroken := isName.isPart.unbroken
  rw [follow, isRooted_of_unbroken unbroken, pathParts_of_unbroken unbroken,
    if_neg Bool.false_ne_true]
  exact step_of_isName isName location

/-- A path behind a directory is followed from where the directory is. -/
theorem follow_append_slash
    {directory : String}
    (nonempty : directory ≠ "")
    (working : Location)
    (path : String) :
    working.follow (directory ++ "/" ++ path) =
      (pathParts path).foldl step (working.follow directory) := by
  have sameRoot : isRooted (directory ++ "/" ++ path) = isRooted directory := by
    have characters : directory.toList ≠ [] :=
      fun isEmpty => nonempty (String.toList_eq_nil_iff.mp isEmpty)
    obtain ⟨c, others, isCons⟩ := List.exists_cons_of_ne_nil characters
    simp [isRooted, String.toList_append, isCons]
  rw [follow, follow, sameRoot, pathParts_append_slash, List.foldl_append]

/-- A name in a directory is found where the directory is. -/
theorem follow_join
    (isName : IsName name)
    (working : Location)
    (directory : String) :
    working.follow (CleanPath.join directory name) = working.follow directory ++ [name] := by
  unfold CleanPath.join
  split
  · rename_i isHere
    rw [if_neg isName.isPart.nonempty, follow_clean, follow_of_isName isName, isHere]
    rfl
  · rename_i nonempty
    rw [follow_clean, follow_append_slash nonempty,
      pathParts_of_unbroken isName.isPart.unbroken]
    exact step_of_isName isName _

/-! ## Endings of names -/

/-- The name of the location has an ending. -/
def EndsIn (ending : String) (location : Location) : Prop :=
  ∃ stem, location.name = stem ++ ending

variable {stem ending : String}

/-- A text with an ending is a name, if the ending has more than points. -/
theorem isName_append
    (unbroken : '/' ∉ (stem ++ ending).toList)
    (marked : ∃ c ∈ ending.toList, c ≠ '.') :
    IsName (stem ++ ending) := by
  obtain ⟨c, member, isMark⟩ := marked
  have isThere : c ∈ (stem ++ ending).toList := by simp [member]
  have differs : ∀ text : String, (∀ other ∈ text.toList, other = '.') → stem ++ ending ≠ text := by
    rintro text points rfl
    exact isMark (points c isThere)
  exact ⟨⟨differs "" (by simp), differs "." (by simp), unbroken⟩, differs ".." (by simp)⟩

/-- A path with an ending leads to a name with this ending. -/
theorem endsIn_follow
    (unbroken : '/' ∉ ending.toList)
    (marked : ∃ c ∈ ending.toList, c ≠ '.')
    (working : Location)
    (path : String) :
    (working.follow (path ++ ending)).EndsIn ending := by
  obtain ⟨parts, part, -, split⟩ := pathParts_append path unbroken
  have isLast : part ++ ending ∈ pathParts (path ++ ending) := by simp [split]
  refine ⟨part, ?_⟩
  rw [follow, split, List.foldl_append, List.foldl_cons, List.foldl_nil,
    step_of_isName (isName_append (not_mem_of_mem_pathParts isLast) marked), name_append]

/-- The same in a directory. -/
theorem endsIn_follow_join
    (unbroken : '/' ∉ ending.toList)
    (marked : ∃ c ∈ ending.toList, c ≠ '.')
    (working : Location)
    (directory stem : String) :
    (working.follow (CleanPath.join directory (stem ++ ending))).EndsIn ending := by
  unfold CleanPath.join
  split
  · split
    · rename_i isEmpty
      obtain ⟨c, member, -⟩ := marked
      have noEnding : ending = "" := (String.append_eq_empty_iff.mp isEmpty).2
      simp [noEnding] at member
    · rw [follow_clean]
      exact endsIn_follow unbroken marked working stem
  · rw [follow_clean, ← String.append_assoc]
    exact endsIn_follow unbroken marked working (directory ++ "/" ++ stem)

end Location

/-- Dropping an ending that stands there leaves what stands in front of it. -/
theorem dropEnding_append
    (stem ending : String) :
    dropEnding ending (stem ++ ending) = stem := by
  have lengths : (stem ++ ending).length - ending.length = stem.toList.length := by
    rw [String.length_append, Nat.add_sub_cancel, String.length_toList]
  have isThere : (stem ++ ending).toList.reverse.take ending.length = ending.toList.reverse := by
    rw [String.toList_append, List.reverse_append, ← String.length_toList, ← List.length_reverse,
      List.take_left]
  rw [dropEnding, if_pos isThere, lengths, String.toList_append, List.take_left,
    String.ofList_toList]

/-- A text without the ending stays as it is. -/
theorem dropEnding_eq_self
    {ending text : String}
    (other : ∀ stem, text ≠ stem ++ ending) :
    dropEnding ending text = text := by
  rw [dropEnding, if_neg]
  intro isEnding
  have suffix : ending.toList.reverse <+: text.toList.reverse := ⟨_, by
    rw [← isEnding]
    exact List.take_append_drop _ _⟩
  obtain ⟨stem, whole⟩ := List.reverse_prefix.mp suffix
  refine other (String.ofList stem) (String.toList_inj.mp ?_)
  rw [String.toList_append, String.toList_ofList, whole]

/-- Dropping what stands in front leaves what stands behind. -/
theorem dropLeading_append (leading text : String) :
    dropLeading leading (leading ++ text) = text := by
  rw [dropLeading, String.toList_append, ← String.length_toList, List.take_left, List.drop_left,
    if_pos rfl, String.ofList_toList]

/-- A text that does not start like this stays as it is. -/
theorem dropLeading_eq_self
    {leading text : String}
    (other : ∀ rest, text ≠ leading ++ rest) :
    dropLeading leading text = text := by
  rw [dropLeading, if_neg]
  intro starts
  refine other (String.ofList (text.toList.drop leading.length)) (String.toList_inj.mp ?_)
  rw [String.toList_append, String.toList_ofList, ← starts, List.take_append_drop]

/-! ## Places in a file tree -/

namespace FileSystem

variable {files : FileSystem} {location working : Location}

/-- A walk that succeeds ends where its steps lead. -/
theorem eq_foldl_of_walk
    {parts : List String}
    {start : Location}
    (walked : files.walk start parts = .ok location) :
    location = parts.foldl Location.step start := by
  induction parts generalizing start with
  | nil =>
      cases walked
      rfl
  | cons part rest inductionHypothesis =>
      rw [walk] at walked
      split at walked
      · exact inductionHypothesis walked
      · cases walked
      · cases walked

/-- Where a path leads through the directories of a tree is where it leads by its parts alone. -/
theorem eq_follow_of_locate
    {path : String}
    (located : files.locate working path = .ok location) :
    location = working.follow path := by
  unfold locate at located
  split at located
  · cases located
  · exact eq_foldl_of_walk located

end FileSystem

end FrenchNim
