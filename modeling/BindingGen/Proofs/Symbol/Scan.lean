import BindingGen.Symbol.Scan

/-!
# What a scan finds

`Captures` says what a scan is meant to find without saying how: at every place either no reference
begins and one character is skipped, or one begins and as many word characters as follow belong to
it.

1. `captures_iff`: a scan returns the captured names and no other list.
2. `scan_append_break`: a character outside words separates what is found before it from what is
   found after it, so that no reference is created, lost or merged where texts meet.
3. `mem_scan_of_run`: a whole run of word characters that starts with the marker is found.
4. `isWordChar_of_mem_scan`: whatever is found is made of word characters.
-/

namespace BindingGen.Symbol

open Text (isWordChar)

/-! ## Captured names -/

/-- A reference begins here: the marker with at least one word character after it. -/
def StartsReference (text : List Char) : Prop :=
  ∃ c rest, text = marker ++ c :: rest ∧ isWordChar c = true

/-- No word goes on here: the text is empty or starts with a character outside words. -/
def EndsWord (text : List Char) : Prop :=
  ∀ c rest, text = c :: rest → isWordChar c = false

/-- `Captures text names`: these are the names of the leftmost, longest references of the text
that do not overlap.

* `skip`: a character is passed over only where no reference begins, so the leftmost one is taken.
* `take`: the name ends only where no word character follows, so the longest one is taken, and the
  search goes on behind it. -/
inductive Captures : List Char → List (List Char) → Prop
  | done : Captures [] []
  | skip {c : Char} {rest : List Char} {names : List (List Char)} :
      ¬ StartsReference (c :: rest) → Captures rest names → Captures (c :: rest) names
  | take {name after : List Char} {names : List (List Char)} :
      name ≠ [] → (∀ c ∈ name, isWordChar c = true) → EndsWord after → Captures after names →
      Captures (marker ++ name ++ after) (name :: names)

theorem isWordChar_of_mem_marker {c : Char} (member : c ∈ marker) : isWordChar c = true := by
  have all : marker.all isWordChar = true := by decide +kernel
  exact List.all_eq_true.mp all c member

theorem endsWord_nil : EndsWord [] := by
  intro c rest equal
  cases equal

theorem endsWord_cons {c : Char} {rest : List Char} (outside : isWordChar c = false) :
    EndsWord (c :: rest) := by
  intro d tail equal
  cases equal
  exact outside

theorem endsWord_append_break {text rest : List Char} {c : Char} (ends : EndsWord text)
    (outside : isWordChar c = false) : EndsWord (text ++ c :: rest) := by
  cases text with
  | nil => exact endsWord_cons outside
  | cons d tail => exact endsWord_cons (ends d tail rfl)

theorem endsWord_dropWhile (text : List Char) : EndsWord (text.dropWhile isWordChar) := by
  intro c rest equal
  have nonempty : text.dropWhile isWordChar ≠ [] := by simp [equal]
  have head := List.head_dropWhile_not isWordChar nonempty
  simpa [equal] using head

/-- The word characters at the start of a text reach to where the word ends. -/
theorem takeWhile_append_of_endsWord {name after : List Char}
    (words : ∀ c ∈ name, isWordChar c = true) (ends : EndsWord after) :
    (name ++ after).takeWhile isWordChar = name := by
  rw [List.takeWhile_append_of_pos words]
  cases after with
  | nil => simp
  | cons c rest => simp [ends c rest rfl]

/-- Where a reference begins, the text is the marker, a name as long as possible and a rest. -/
theorem StartsReference.split {text : List Char} (starts : StartsReference text) :
    ∃ name after, text = marker ++ name ++ after ∧ name ≠ [] ∧
      (∀ c ∈ name, isWordChar c = true) ∧ EndsWord after := by
  obtain ⟨c, rest, equal, word⟩ := starts
  refine ⟨(c :: rest).takeWhile isWordChar, (c :: rest).dropWhile isWordChar, ?_, ?_, ?_,
    endsWord_dropWhile _⟩
  · rw [List.append_assoc, List.takeWhile_append_dropWhile, equal]
  · simp [word]
  · intro d member
    exact List.all_eq_true.mp List.all_takeWhile d member

theorem startsReference_append {name after : List Char} (nonempty : name ≠ [])
    (words : ∀ c ∈ name, isWordChar c = true) : StartsReference (marker ++ name ++ after) := by
  obtain ⟨c, rest, rfl⟩ := List.exists_cons_of_ne_nil nonempty
  exact ⟨c, rest ++ after, by simp, words c List.mem_cons_self⟩

/-- A reference does not reach over a character outside words. -/
theorem StartsReference.of_append_break {a b : List Char} {c : Char}
    (outside : isWordChar c = false) (starts : StartsReference (a ++ c :: b)) :
    StartsReference a := by
  obtain ⟨name, after, equal, nonempty, words, -⟩ := starts.split
  have wordsAll : ∀ d ∈ marker ++ name, isWordChar d = true := by
    intro d member
    rcases List.mem_append.mp member with inMarker | inName
    · exact isWordChar_of_mem_marker inMarker
    · exact words d inName
  rcases List.append_eq_append_iff.mp equal with ⟨middle, whole, tail⟩ | ⟨middle, whole, -⟩
  · -- the reference would contain the separating character, or end right before it
    cases middle with
    | nil =>
      rw [List.append_nil] at whole
      rw [← whole, ← List.append_nil (marker ++ name)]
      exact startsReference_append nonempty words
    | cons d middle =>
      cases tail
      have member : c ∈ marker ++ name := by rw [whole]; simp
      exact absurd (wordsAll c member) (by simp [outside])
  · rw [whole]
    exact startsReference_append nonempty words

theorem not_startsReference_break {c : Char} {rest : List Char} (outside : isWordChar c = false) :
    ¬ StartsReference (c :: rest) := by
  intro starts
  have inNothing : StartsReference [] := StartsReference.of_append_break (a := []) outside starts
  obtain ⟨d, tail, equal, -⟩ := inNothing
  simp at equal

/-! ## A scan returns the captured names -/

theorem afterMarker?_eq_some_iff {text after : List Char} :
    afterMarker? text = some after ↔ text = marker ++ after := by
  unfold afterMarker?
  constructor
  · intro found
    split at found
    · next isPrefix =>
      obtain ⟨rest, rfl⟩ := List.isPrefixOf_iff_prefix.mp isPrefix
      simp only [List.drop_left, Option.some.injEq] at found
      rw [found]
    · cases found
  · rintro rfl
    have isPrefix : marker.isPrefixOf (marker ++ after) = true :=
      List.isPrefixOf_iff_prefix.mpr (List.prefix_append marker after)
    rw [if_pos isPrefix, List.drop_left]

/-- A scan passes over a character where no reference begins. -/
theorem scan_cons_of_not_startsReference {c : Char} {rest : List Char}
    (clear : ¬ StartsReference (c :: rest)) : scan (c :: rest) = scan rest := by
  rw [scan]
  split
  · rfl
  · next after found =>
    split
    · rfl
    · next d name run =>
      obtain ⟨tail, rfl⟩ : ∃ tail, after = d :: tail := by
        cases after with
        | nil => simp at run
        | cons e tail =>
          cases word : isWordChar e
          · simp [word] at run
          · simp only [List.takeWhile_cons, word] at run
            cases run
            exact ⟨tail, rfl⟩
      have member : d ∈ (d :: tail).takeWhile isWordChar := by simp [run]
      have word := List.all_eq_true.mp List.all_takeWhile d member
      exact absurd ⟨d, tail, afterMarker?_eq_some_iff.mp found, word⟩ clear

/-- A scan takes a reference whole and goes on behind it. -/
theorem scan_reference {name after : List Char} (nonempty : name ≠ [])
    (words : ∀ c ∈ name, isWordChar c = true) (ends : EndsWord after) :
    scan (marker ++ name ++ after) = name :: scan after := by
  obtain ⟨d, tail, rfl⟩ := List.exists_cons_of_ne_nil nonempty
  have run : (d :: tail ++ after).takeWhile isWordChar = d :: tail :=
    takeWhile_append_of_endsWord words ends
  obtain ⟨m, start, opening⟩ : ∃ m start, marker = m :: start := ⟨_, _, rfl⟩
  have found : afterMarker? (m :: (start ++ (d :: tail) ++ after)) = some (d :: tail ++ after) := by
    rw [afterMarker?_eq_some_iff, opening]
    simp
  have dropped : (start ++ (d :: tail) ++ after).drop (marker.length + tail.length) = after := by
    rw [opening, List.drop_left']
    simp only [List.length_append, List.length_cons]
    omega
  calc
    scan (marker ++ (d :: tail) ++ after)
      = scan (m :: (start ++ (d :: tail) ++ after)) := by rw [opening]; rfl
    _ = (d :: tail) :: scan after := by rw [scan, found]; simp only [run, dropped]

theorem captures_scan (text : List Char) : Captures text (scan text) := by
  -- A reference is taken whole, so the induction is on the length of the text.
  induction length : text.length using Nat.strongRecOn generalizing text with
  | _ n ih =>
    by_cases starts : StartsReference text
    · obtain ⟨name, after, rfl, nonempty, words, ends⟩ := starts.split
      have shorter : after.length < n := by
        have positive := List.length_pos_iff.mpr nonempty
        simp only [List.length_append] at length
        omega
      rw [scan_reference nonempty words ends]
      exact .take nonempty words ends (ih after.length shorter after rfl)
    · cases text with
      | nil => rw [scan]; exact .done
      | cons c rest =>
        rw [scan_cons_of_not_startsReference starts]
        exact .skip starts (ih rest.length (by simp at length; omega) rest rfl)

/-- A scan returns exactly the captured names, in order. -/
theorem captures_iff {text : List Char} {names : List (List Char)} :
    Captures text names ↔ names = scan text := by
  constructor
  · intro captures
    induction captures with
    | done => rw [scan]
    | skip clear _ ih => rw [scan_cons_of_not_startsReference clear, ih]
    | take nonempty words ends _ ih => rw [scan_reference nonempty words ends, ih]
  · rintro rfl
    exact captures_scan text

/-! ## Texts that meet at a break -/

/-- Captured names of two texts stay apart where a character outside words stands between. -/
theorem Captures.append_break {a b : List Char} {c : Char} {names others : List (List Char)}
    (outside : isWordChar c = false) (first : Captures a names) (second : Captures b others) :
    Captures (a ++ c :: b) (names ++ others) := by
  induction first with
  | done => exact .skip (not_startsReference_break outside) second
  | skip clear _ ih =>
    refine .skip (fun starts => clear ?_) ih
    exact StartsReference.of_append_break outside starts
  | @take name after names nonempty words ends _ ih =>
    rw [List.append_assoc]
    exact .take nonempty words (endsWord_append_break ends outside) ih

/-- A scan works on the two sides of a character outside words by themselves. -/
theorem scan_append_break {c : Char} (outside : isWordChar c = false) (a b : List Char) :
    scan (a ++ c :: b) = scan a ++ scan b :=
  (captures_iff.mp ((captures_scan a).append_break outside (captures_scan b))).symm

theorem scan_nil : scan [] = [] := by rw [scan]

theorem scan_cons_break {c : Char} (outside : isWordChar c = false) (b : List Char) :
    scan (c :: b) = scan b := by
  rw [← List.nil_append (c :: b), scan_append_break outside, scan_nil, List.nil_append]

/-- No word comes to here: the text is empty or ends with a character outside words. -/
def StartsWord (text : List Char) : Prop :=
  ∀ c front, text = front ++ [c] → isWordChar c = false

/-- A run of word characters that consists of the marker and a name is found, whatever stands
around the run. -/
theorem mem_scan_of_run {before name after : List Char} (starts : StartsWord before)
    (nonempty : name ≠ []) (words : ∀ c ∈ name, isWordChar c = true) (ends : EndsWord after) :
    name ∈ scan (before ++ (marker ++ name ++ after)) := by
  have found : name ∈ scan (marker ++ name ++ after) := by
    rw [scan_reference nonempty words ends]
    exact List.mem_cons_self
  rcases List.eq_nil_or_concat before with rfl | ⟨front, c, rfl⟩
  · exact found
  · rw [List.concat_eq_append] at starts ⊢
    rw [List.append_assoc, List.singleton_append, scan_append_break (starts c front rfl)]
    exact List.mem_append_right _ found

/-- The names that a scan returns consist of word characters. -/
theorem isWordChar_of_mem_scan {text name : List Char} (member : name ∈ scan text) :
    name ≠ [] ∧ ∀ c ∈ name, isWordChar c = true := by
  have captures := captures_scan text
  generalize scan text = names at member captures
  induction captures with
  | done => simp at member
  | skip _ _ ih => exact ih member
  | take nonempty words _ _ ih =>
    rcases List.mem_cons.mp member with rfl | inRest
    · exact ⟨nonempty, words⟩
    · exact ih inRest

end BindingGen.Symbol
