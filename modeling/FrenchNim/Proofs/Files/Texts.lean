import FrenchNim.Proofs.Files.Paths

namespace FrenchNim

/-!
# Paths as texts

A path ends with its last part, and an ending without slashes is the ending of this
part. The text of a location is a path that starts at the root, and the clean form
of such a path is the text of the location that it leads to.
-/

/-! ## The last part of a path -/

/-- A text ends with its last part, and is its only part. -/
theorem exists_lead_of_splitSlashes
    {text part : List Char}
    {parts : List (List Char)}
    (split : splitSlashes text = parts ++ [part]) :
    ∃ lead, text = lead ++ part ∧ (parts = [] → lead = []) := by
  induction text generalizing parts part with
  | nil =>
      have single : [[]] = parts ++ [part] := split
      cases parts with
      | nil =>
          cases single
          exact ⟨[], rfl, fun _ => rfl⟩
      | cons head tail =>
          simp at single
  | cons c rest inductionHypothesis =>
      obtain ⟨first, others, isSplit⟩ := List.exists_cons_of_ne_nil (splitSlashes_ne_nil rest)
      by_cases isSlash : c = '/'
      · rw [splitSlashes, if_pos isSlash] at split
        cases parts with
        | nil =>
            exact (splitSlashes_ne_nil rest (List.cons.inj split).2).elim
        | cons head tail =>
            obtain ⟨lead, rfl, -⟩ := inductionHypothesis (List.cons.inj split).2
            exact ⟨c :: lead, rfl, by simp⟩
      · rw [splitSlashes_cons isSlash isSplit] at split
        cases parts with
        | nil =>
            obtain ⟨rfl, rfl⟩ := List.cons.inj split
            have single : splitSlashes rest = [] ++ [first] := isSplit
            obtain ⟨lead, whole, only⟩ := inductionHypothesis single
            exact ⟨[], by rw [whole, only rfl]; rfl, fun _ => rfl⟩
        | cons head tail =>
            obtain ⟨rfl, rfl⟩ := List.cons.inj split
            have longer : splitSlashes rest = (first :: tail) ++ [part] := isSplit
            obtain ⟨lead, rfl, -⟩ := inductionHypothesis longer
            exact ⟨c :: lead, rfl, by simp⟩

section Parts

variable {path last : String} {front : List String}

/-- A path ends with its last part. -/
theorem exists_lead_of_pathParts
    (split : pathParts path = front ++ [last]) :
    ∃ lead, path = lead ++ last := by
  obtain ⟨parts, tail, isSplit, -, isLast⟩ := List.map_eq_append_iff.mp split
  obtain ⟨part, rfl, rfl⟩ := List.map_eq_singleton_iff.mp isLast
  obtain ⟨lead, whole, -⟩ := exists_lead_of_splitSlashes isSplit
  exact ⟨String.ofList lead, by rw [← String.ofList_append, ← whole, String.ofList_toList]⟩

/-- An ending without slashes is the ending of the last part. -/
theorem pathParts_concat
    {ending : String}
    (unbroken : '/' ∉ ending.toList)
    (split : pathParts path = front ++ [last]) :
    pathParts (path ++ ending) = front ++ [last ++ ending] := by
  obtain ⟨parts, part, isSplit, isLonger⟩ := pathParts_append path unbroken
  obtain ⟨rfl, same⟩ := List.append_inj' (split.symm.trans isSplit) rfl
  cases same
  exact isLonger

/-- A name without its ending has no slash if the name has none. -/
theorem unbroken_dropEnding
    {text : String}
    (ending : String)
    (unbroken : '/' ∉ text.toList) :
    '/' ∉ (dropEnding ending text).toList := by
  rw [dropEnding]
  split
  · rw [String.toList_ofList]
    exact fun member => unbroken (List.mem_of_mem_take member)
  · exact unbroken

/-- An ending without slashes is dropped from the last part. -/
theorem pathParts_dropEnding
    {ending : String}
    (unbroken : '/' ∉ ending.toList)
    (split : pathParts path = front ++ [last]) :
    pathParts (dropEnding ending path) = front ++ [dropEnding ending last] := by
  by_cases ends : ∃ stem, path = stem ++ ending
  · obtain ⟨stem, rfl⟩ := ends
    obtain ⟨parts, part, isSplit, isLonger⟩ := pathParts_append stem unbroken
    obtain ⟨rfl, same⟩ := List.append_inj' (split.symm.trans isLonger) rfl
    cases same
    rw [dropEnding_append, dropEnding_append, isSplit]
  · rw [not_exists] at ends
    obtain ⟨lead, isPath⟩ := exists_lead_of_pathParts split
    have lastEnds : ∀ stem, last ≠ stem ++ ending := by
      rintro stem rfl
      exact ends (lead ++ stem) (by rw [isPath, String.append_assoc])
    rw [dropEnding_eq_self ends, dropEnding_eq_self lastEnds, split]

/-- A path starts at the root if its first part is empty and not the only one. -/
theorem isRooted_of_pathParts
    (split : pathParts path = front ++ [last]) :
    isRooted path = decide (front.head? = some "") := by
  unfold isRooted
  unfold pathParts at split
  cases shape : path.toList with
  | nil =>
      rw [shape] at split
      have single : [""] = front ++ [last] := split
      cases front with
      | nil => rfl
      | cons head tail => simp at single
  | cons c rest =>
      rw [shape] at split
      obtain ⟨first, others, isSplit⟩ := List.exists_cons_of_ne_nil (splitSlashes_ne_nil rest)
      by_cases isSlash : c = '/'
      · rw [splitSlashes, if_pos isSlash, isSplit, List.map_cons, List.map_cons] at split
        cases front with
        | nil => simp at split
        | cons head tail =>
            obtain ⟨rfl, -⟩ := List.cons.inj split
            simp [isSlash]
      · rw [splitSlashes_cons isSlash isSplit, List.map_cons] at split
        have notEmpty : String.ofList (c :: first) ≠ "" := by simp
        cases front with
        | nil => simpa using isSlash
        | cons head tail =>
            obtain ⟨rfl, -⟩ := List.cons.inj split
            simp [isSlash]

end Parts

namespace Location

/-! ## The text of a location -/

/-- The parts of a plain location lead to it from anywhere. -/
theorem foldl_step_of_plain
    {location : Location}
    (plain : location.Plain)
    (start : Location) :
    List.foldl step start location = start ++ location := by
  induction location generalizing start with
  | nil =>
      exact (List.append_nil start).symm
  | cons name rest inductionHypothesis =>
      obtain ⟨isName, others⟩ := List.forall_mem_cons.mp plain
      rw [List.foldl_cons, step_of_isName isName, inductionHypothesis others, List.append_assoc]
      rfl

/-- The path from the root to a name, without the name. -/
def textTo (location : Location) : String :=
  String.join (location.map ("/" ++ ·))

/-- The text of a location ends with a slash and its name. -/
theorem text_concat (location : Location) (name : String) :
    Location.text (location ++ [name]) = location.textTo ++ "/" ++ name := by
  cases location with
  | nil => simp [text, textTo]
  | cons first rest => simp [text, textTo, String.append_assoc]

/-- A path that begins with the text of a location is absolute. -/
theorem isRooted_textTo_append (location : Location) (path : String) :
    isRooted (location.textTo ++ "/" ++ path) = true := by
  cases location with
  | nil => simp [isRooted, textTo, String.toList_append]
  | cons first rest => simp [isRooted, textTo, String.toList_append]

/-- Such a path has the parts of the location and then its own. -/
theorem pathParts_textTo_append
    {location : Location}
    (plain : location.Plain)
    (path : String) :
    pathParts (location.textTo ++ "/" ++ path) = "" :: location ++ pathParts path := by
  induction location using List.reverseRecOn generalizing path with
  | nil =>
      exact pathParts_append_slash "" path
  | append_singleton location name inductionHypothesis =>
      obtain ⟨others, isName⟩ := List.forall_mem_append.mp plain
      have unbroken := (isName name (List.mem_singleton_self name)).isPart.unbroken
      have regrouped : textTo (location ++ [name]) ++ "/" ++ path =
          textTo location ++ "/" ++ (name ++ "/" ++ path) := by
        simp [textTo, String.append_assoc]
      rw [regrouped, inductionHypothesis others, pathParts_append_slash,
        pathParts_of_unbroken unbroken]
      simp

/-- A path behind the text of a location is followed from there. -/
theorem follow_textTo_append
    {location : Location}
    (plain : location.Plain)
    (working : Location)
    (path : String) :
    working.follow (location.textTo ++ "/" ++ path) = (pathParts path).foldl step location := by
  rw [follow, isRooted_textTo_append, if_pos rfl, pathParts_textTo_append plain, List.cons_append,
    List.foldl_cons, List.foldl_append]
  exact congrArg (List.foldl step · (pathParts path)) (foldl_step_of_plain plain [])

/-- The text of a location leads there. -/
theorem follow_text
    {location : Location}
    (plain : location.Plain)
    (working : Location) :
    working.follow location.text = location := by
  cases location using List.reverseRecOn with
  | nil =>
      rfl
  | append_singleton front name =>
      obtain ⟨others, isName⟩ := List.forall_mem_append.mp plain
      have last := isName name (List.mem_singleton_self name)
      rw [text_concat, follow_textTo_append others, pathParts_of_unbroken last.isPart.unbroken]
      exact step_of_isName last front

/-- Where names are plain, the parts of a rooted path are cleaned by following them. -/
theorem foldl_cleanStep
    {parts : List String}
    (unbroken : ∀ part ∈ parts, '/' ∉ part.toList)
    {location : Location}
    (plain : location.Plain) :
    parts.foldl (CleanPath.step true) location = parts.foldl step location := by
  have same : ∀ {location : Location}, location.Plain → ∀ part,
      CleanPath.step true location part = location.step part := by
    intro location plain part
    unfold CleanPath.step step
    split
    · rfl
    split
    · rw [parent]
      cases isLast : location.getLast? with
      | none =>
          rw [List.getLast?_eq_none_iff.mp isLast]
          rfl
      | some last =>
          have notAbove := (plain last (List.mem_of_getLast? isLast)).notAbove
          simp only [if_neg notAbove]
    · rfl
  induction parts generalizing location with
  | nil =>
      rfl
  | cons part rest inductionHypothesis =>
      obtain ⟨isUnbroken, others⟩ := List.forall_mem_cons.mp unbroken
      rw [List.foldl_cons, List.foldl_cons, same plain,
        inductionHypothesis others (plain.step isUnbroken)]

/-- The text of a location is its parts with a slash before each of them. -/
theorem text_eq_intercalate (location : Location) :
    location.text = "/" ++ "/".intercalate location := by
  cases location with
  | nil =>
      rfl
  | cons first rest =>
      have joined : ∀ first : String, String.join ((first :: rest).map ("/" ++ ·)) =
          "/" ++ "/".intercalate (first :: rest) := by
        induction rest with
        | nil =>
            intro first
            simp
        | cons second rest inductionHypothesis =>
            intro first
            rw [List.map_cons, String.join_cons, inductionHypothesis,
              String.intercalate_cons_cons]
            simp [String.append_assoc]
      exact joined first

/-- Cleaning a rooted path gives the text of the location that it leads to. -/
theorem clean_of_isRooted
    {path : String}
    (rooted : isRooted path = true)
    (working : Location) :
    CleanPath.clean path = (working.follow path).text := by
  have unbroken : ∀ part ∈ pathParts path, '/' ∉ part.toList :=
    fun part member => not_mem_of_mem_pathParts member
  have noParts : Plain [] := by
    simp [Plain]
  rw [CleanPath.clean, rooted, if_pos rfl, follow, if_pos rooted, text_eq_intercalate,
    foldl_cleanStep unbroken noParts]

/-- The directory of a name in a location is the location. -/
theorem directory_text_concat
    {location : Location}
    {name : String}
    (plain : location.Plain)
    (unbroken : '/' ∉ name.toList) :
    CleanPath.directory (Location.text (location ++ [name])) = location.text := by
  have isFront : (Location.text (location ++ [name])).toList.reverse.dropWhile (· ≠ '/') =
      (location.textTo ++ "/").toList.reverse := by
    have others : ∀ c ∈ name.toList.reverse, (decide (c ≠ '/')) = true := by
      intro c member
      refine decide_eq_true fun isSlash => unbroken ?_
      exact isSlash ▸ List.mem_reverse.mp member
    rw [text_concat, String.toList_append, List.reverse_append,
      List.dropWhile_append_of_pos others, String.toList_append, List.reverse_append]
    rfl
  have whole := follow_textTo_append plain [] ""
  have rooted := isRooted_textTo_append location ""
  rw [String.append_empty] at whole rooted
  rw [CleanPath.directory, isFront, List.reverse_reverse, String.ofList_toList,
    clean_of_isRooted rooted [], whole]
  rfl

/-- A path that starts in a location leads to the same place as its clean text. -/
theorem join_text_eq
    {location : Location}
    (plain : location.Plain)
    {path : String}
    (relative : isRooted path = false) :
    CleanPath.join location.text path = (location.follow path).text := by
  have nonempty : location.text ≠ "" := by
    rw [text_eq_intercalate]
    simp
  have rooted : isRooted (location.text ++ "/" ++ path) = true := by
    rw [text_eq_intercalate]
    simp [isRooted, String.toList_append]
  rw [CleanPath.join, if_neg nonempty, clean_of_isRooted rooted [], follow_append_slash nonempty,
    follow_text plain, follow, relative, if_neg Bool.false_ne_true]

/-- A path is followed to the directory of its last part first. -/
theorem follow_of_pathParts
    {path last : String}
    {front : List String}
    (split : pathParts path = front ++ [last])
    (location : Location) :
    location.follow path =
      (front.foldl step (if front.head? = some "" then [] else location)).step last := by
  rw [follow, split, isRooted_of_pathParts split, List.foldl_append]
  simp only [decide_eq_true_eq]
  rfl

end Location

end FrenchNim
