import Amq.Substitution
import Mathlib.Data.List.Induction

/-!
# Which values are substituted as they are

Values that are not harmless are found out by templates with a single placeholder.
A value with a special dollar sign is changed in a long template.  Text around the
value of one variable that makes a placeholder of another one of it is changed
when the other variable is replaced later.
-/

namespace Amq.StringUtil

variable {entries : List (String × String)} {entry other : String × String}

/-! ## Templates with one placeholder -/

/-- No placeholder begins in text without a closing brace if an opening brace comes
after it. -/
theorem noneStarts_unclosed
    (plain : ∀ entry ∈ entries, IsPlain entry.1.toList) {text : List Char}
    (begins : text ≠ []) (noClosing : '\x7d' ∉ text) (rest : List Char) :
    NoneStarts entries (text ++ '\x7b' :: rest) := by
  intro found member word after placeholder itself
  obtain ⟨inside, shape, _, _⟩ := placeholder.shape (plain found member)
  have closes : '\x7d' ∈ word := by
    rw [shape]
    simp
  rcases List.append_eq_append_iff.mp itself with
    ⟨further, longer, opens⟩ | ⟨further, shorter, _⟩
  · cases further with
    | nil =>
        rw [longer, List.append_nil] at closes
        exact noClosing closes
    | cons first others =>
        have same := (List.cons.inj opens).1
        rw [← same] at longer
        exact placeholder.tail_ne (plain found member) begins longer others rfl
  · rw [shorter] at noClosing
    exact noClosing (List.mem_append_left _ closes)

theorem Reads.append_unclosed
    (plain : ∀ entry ∈ entries, IsPlain entry.1.toList)
    {text rest : List Char} {pieces : List Piece}
    (noClosing : '\x7d' ∉ text) (reads : Reads entries ('\x7b' :: rest) pieces) :
    Reads entries (text ++ '\x7b' :: rest) (text.map Piece.copied ++ pieces) := by
  induction text with
  | nil => exact reads
  | cons char others inductionHypothesis =>
      refine .copied ?_ (inductionHypothesis fun member =>
        noClosing (List.mem_cons_of_mem char member))
      exact noneStarts_unclosed plain (List.cons_ne_nil char others) noClosing rest

theorem Reads.of_copied
    {char : Char} {string : List Char} {pieces : List Piece}
    (reads : Reads entries string (.copied char :: pieces)) :
    ∃ rest, string = char :: rest ∧ NoneStarts entries (char :: rest) ∧
      Reads entries rest pieces := by
  cases reads with
  | copied none reads => exact ⟨_, rfl, none, reads⟩

/-- Copied text is not replaced. -/
theorem replaceFrom_append_copied
    {text rest : List Char} {pieces : List Piece}
    (reads : Reads [entry] (text ++ rest) (text.map Piece.copied ++ pieces))
    (value before : List Char) :
    replaceFrom entry.1.toList value before 0 (text ++ rest) =
      text ++ replaceFrom entry.1.toList value (before ++ text) 0 rest := by
  induction text generalizing before with
  | nil => rw [List.append_nil]; rfl
  | cons char others inductionHypothesis =>
      obtain ⟨_, same, none, later⟩ := Reads.of_copied reads
      cases same
      calc
        _ = char ::
              replaceFrom entry.1.toList value (before ++ [char]) 0 (others ++ rest) :=
          replaceFrom_copied none value before
        _ = char :: (others ++
              replaceFrom entry.1.toList value (before ++ [char] ++ others) 0 rest) := by
          rw [inductionHypothesis later]
        _ = _ := by
          rw [← List.append_cons]
          rfl

/-- A string is read in one way only. -/
theorem Reads.unique
    (named : AreVariables entries) {string : List Char}
    {pieces pieces' : List Piece} (reads : Reads entries string pieces)
    (again : Reads entries string pieces') : pieces = pieces' := by
  induction reads generalizing pieces' with
  | nil =>
      generalize same : [] = string at again
      cases again with
      | nil => rfl
      | copied none reads => cases same
      | replaced member placeholder reads =>
          obtain ⟨others, shape⟩ := placeholder.exists_cons
          rw [shape] at same
          cases same
  | @copied char rest pieces none reads inductionHypothesis =>
      generalize same : char :: rest = string at again
      cases again with
      | nil => cases same
      | copied none' reads' =>
          cases same
          rw [inductionHypothesis reads']
      | replaced member placeholder reads' =>
          exact absurd same (none _ member _ _ placeholder)
  | @replaced found word rest pieces member placeholder reads
      inductionHypothesis =>
      generalize same : word ++ rest = string at again
      cases again with
      | nil =>
          obtain ⟨others, shape⟩ := placeholder.exists_cons
          rw [shape] at same
          cases same
      | copied none' reads' =>
          exact absurd same.symm (none' _ member _ _ placeholder)
      | replaced member' placeholder' reads' =>
          obtain ⟨sameWord, sameRest⟩ :=
            placeholder.eq_of_append (named.isPlain member) placeholder'
              (named.isPlain member') same
          subst sameWord sameRest
          rw [inductionHypothesis reads',
            named.eq_of_placeholder member member' placeholder placeholder']

theorem substituteOnce_of_reads
    (named : AreVariables entries) {template : String} {pieces : List Piece}
    (reads : Reads entries template.toList pieces) :
    substituteOnce entries template = .ofList (pieces.flatMap Piece.result) := by
  have scanned := reads_scan (fun _ => named.isPlain) template.toList
  unfold substituteOnce
  rw [scanned.unique named reads]

theorem replaceFrom_of_copied
    {text : List Char} (reads : Reads [entry] text (text.map Piece.copied))
    (value before : List Char) :
    replaceFrom entry.1.toList value before 0 text = text := by
  have whole : Reads [entry] (text ++ []) (text.map Piece.copied ++ []) := by
    rw [List.append_nil, List.append_nil]
    exact reads
  have copied := replaceFrom_append_copied whole value before
  rw [List.append_nil] at copied
  exact copied.trans (List.append_nil text)

/-- Text around a placeholder that has no other one. -/
structure Surrounds (left right : List Char) : Prop where
  noClosing : '\x7d' ∉ left
  noOpening : '\x7b' ∉ right

section Surrounded

variable {left right word : List Char}

theorem Surrounds.reads_right
    (surrounds : Surrounds left right) (entries : List (String × String)) :
    Reads entries right (right.map Piece.copied) := by
  have copied : Reads entries (right ++ []) (right.map Piece.copied ++ []) :=
    Reads.nil.append_copied surrounds.noOpening
  rw [List.append_nil, List.append_nil] at copied
  exact copied

theorem Surrounds.reads_left
    (surrounds : Surrounds left right)
    (plain : ∀ entry ∈ entries, IsPlain entry.1.toList)
    (placeholder : IsPlaceholder entry.1.toList word) {pieces : List Piece}
    (reads : Reads entries (word ++ right) pieces) :
    Reads entries (left ++ (word ++ right)) (left.map Piece.copied ++ pieces) := by
  obtain ⟨others, shape⟩ := placeholder.exists_cons
  rw [shape] at reads ⊢
  exact reads.append_unclosed plain surrounds.noClosing

theorem Surrounds.substituteOnce_eq
    (surrounds : Surrounds left right) (named : AreVariables entries)
    (member : entry ∈ entries) (placeholder : IsPlaceholder entry.1.toList word) :
    substituteOnce entries (.ofList (left ++ (word ++ right))) =
      .ofList (left ++ (entry.2.toList ++ right)) := by
  have plain : ∀ entry ∈ entries, IsPlain entry.1.toList := fun _ => named.isPlain
  have here : Reads entries (word ++ right) _ :=
    .replaced member placeholder (surrounds.reads_right entries)
  have reads := surrounds.reads_left plain placeholder here
  have template :
      (String.ofList (left ++ (word ++ right))).toList = left ++ (word ++ right) :=
    String.toList_ofList
  rw [← template] at reads
  rw [substituteOnce_of_reads named reads, List.flatMap_append, List.flatMap_cons,
    flatMap_copied _ _ fun _ => rfl, flatMap_copied _ _ fun _ => rfl]
  rfl

/-- Another variable is replaced. -/
theorem Surrounds.replaceAll_other
    (surrounds : Surrounds left right) (named : AreVariables entries)
    (member : entry ∈ entries) (placeholder : IsPlaceholder entry.1.toList word)
    (isOther : other ∈ entries) (different : entry ≠ other) (value : List Char) :
    replaceAll other.1.toList value (left ++ (word ++ right)) =
      left ++ (word ++ right) := by
  have here :=
    named.reads_of_placeholder member isOther different placeholder
      (surrounds.reads_right [other])
  have reads :=
    surrounds.reads_left (named.isPlain isOther).forall_mem placeholder here
  rw [← List.map_append, ← List.map_append] at reads
  exact replaceFrom_of_copied reads value []

/-- Its own variable is replaced. -/
theorem Surrounds.replaceAll_self
    (surrounds : Surrounds left right) (plain : IsPlain entry.1.toList)
    (placeholder : IsPlaceholder entry.1.toList word) (value : List Char) :
    replaceAll entry.1.toList value (left ++ (word ++ right)) =
      left ++ (getSubstitution left word right value ++ right) := by
  have after := surrounds.reads_right [entry]
  have here : Reads [entry] (word ++ right) _ :=
    .replaced List.mem_cons_self placeholder after
  have reads := surrounds.reads_left plain.forall_mem placeholder here
  unfold replaceAll
  rw [replaceFrom_append_copied reads, replaceFrom_placeholder plain placeholder,
    replaceFrom_of_copied after]
  rfl

/-- The variable is replaced after these others. -/
theorem Surrounds.substitute_eq
    (surrounds : Surrounds left right) (named : AreVariables entries)
    (member : entry ∈ entries) (placeholder : IsPlaceholder entry.1.toList word)
    {others : List (String × String)}
    (different : ∀ other ∈ others, other ∈ entries ∧ entry ≠ other)
    (later : List (String × String)) :
    substitute (.ofList (left ++ (word ++ right))) (others ++ entry :: later) =
      .ofList
        (later.foldl
          (fun result entry => replaceAll entry.1.toList entry.2.toList result)
          (left ++
            (getSubstitution left word right entry.2.toList ++ right))) := by
  unfold substitute
  rw [String.toList_ofList]
  refine congrArg String.ofList ?_
  induction others with
  | nil =>
      rw [List.nil_append, List.foldl_cons,
        surrounds.replaceAll_self (named.isPlain member) placeholder]
  | cons other others inductionHypothesis =>
      obtain ⟨isOther, distinct⟩ := different other List.mem_cons_self
      rw [List.cons_append, List.foldl_cons,
        surrounds.replaceAll_other named member placeholder isOther distinct]
      exact inductionHypothesis fun further present =>
        different further (List.mem_cons_of_mem other present)

end Surrounded

/-! ## Strings that stay the same -/

section Fixed

variable {pieces : List Piece}

/-- The placeholders are of one variable, and their last characters close them. -/
def OfVariable (entry : String × String) (pieces : List Piece) : Prop :=
  ∀ found word, Piece.replaced found word ∈ pieces →
    found = entry ∧ ∃ inside, '\x7d' ∉ inside ∧ word = inside ++ ['\x7d']

theorem Reads.ofVariable
    {string : List Char} (reads : Reads [entry] string pieces)
    (plain : IsPlain entry.1.toList) : OfVariable entry pieces := by
  intro found word member
  obtain ⟨present, placeholder⟩ := reads.placeholder_of_mem member
  cases List.mem_singleton.mp present
  obtain ⟨inside, shape, _, noClosing⟩ := placeholder.shape plain
  refine ⟨rfl, '\x7b' :: inside, ?_, shape⟩
  simp [noClosing]

theorem OfVariable.tail
    {piece : Piece} (ofVariable : OfVariable entry (piece :: pieces)) :
    OfVariable entry pieces :=
  fun found word member => ofVariable found word (List.mem_cons_of_mem piece member)

/-- A value that takes the place of a placeholder has one closing brace as well. -/
theorem Reads.count_value
    {string : List Char} (reads : Reads [entry] string pieces)
    (plain : IsPlain entry.1.toList) (fixed : pieces.flatMap Piece.result = string)
    {word : List Char} (member : Piece.replaced entry word ∈ pieces) :
    entry.2.toList.count '\x7d' = 1 := by
  have counts := reads.count_eq fun _ placeholder => placeholder.count_closing plain
  rw [fixed, Nat.add_left_cancel_iff, Nat.mul_one] at counts
  have positive : 0 < pieces.countP Piece.isReplaced :=
    List.countP_pos_iff.mpr ⟨_, member, rfl⟩
  exact (Nat.mul_eq_left (Nat.ne_of_gt positive)).mp counts.symm

/-- This is its last character, as it is at the last placeholder. -/
theorem OfVariable.closes
    (ofVariable : OfVariable entry pieces) (nonempty : entry.2.toList ≠ [])
    (fixed : pieces.flatMap Piece.result = pieces.flatMap Piece.source)
    {word : List Char} (member : Piece.replaced entry word ∈ pieces) :
    ∃ front, entry.2.toList = front ++ ['\x7d'] := by
  induction pieces using List.reverseRecOn with
  | nil => cases member
  | append_singleton others piece inductionHypothesis =>
      rw [List.flatMap_append, List.flatMap_append, List.flatMap_singleton,
        List.flatMap_singleton] at fixed
      cases piece with
      | copied char =>
          have before : OfVariable entry others := fun found word present =>
            ofVariable found word (List.mem_append_left _ present)
          refine inductionHypothesis before (List.append_cancel_right fixed) ?_
          rcases List.mem_append.mp member with earlier | last
          · exact earlier
          · cases List.mem_singleton.mp last
      | replaced found word' =>
          obtain ⟨same, inside, _, shape⟩ :=
            ofVariable found word' (by simp)
          subst same
          simp only [Piece.result, Piece.source] at fixed
          rcases List.eq_nil_or_concat found.2.toList with empty | ⟨front, last, itself⟩
          · exact absurd empty nonempty
          · rw [List.concat_eq_append] at itself
            rw [itself, shape, ← List.append_assoc, ← List.append_assoc] at fixed
            have lasts := (List.append_inj' fixed rfl).2
            exact ⟨front, by rw [itself, lasts]⟩

/-- If replacing a variable changes nothing, its value is each placeholder. -/
theorem OfVariable.eq_of_fixed
    (ofVariable : OfVariable entry pieces)
    (fixed : pieces.flatMap Piece.result = pieces.flatMap Piece.source)
    (one : entry.2.toList.count '\x7d' = 1) {word : List Char}
    (member : Piece.replaced entry word ∈ pieces) : word = entry.2.toList := by
  have nonempty : entry.2.toList ≠ [] := by
    intro empty
    rw [empty] at one
    cases one
  obtain ⟨front, itself⟩ := ofVariable.closes nonempty fixed member
  have absent : '\x7d' ∉ front := by
    rw [itself, List.count_append, List.count_singleton_self] at one
    exact List.count_eq_zero.mp (Nat.succ.inj one)
  clear one nonempty
  induction pieces with
  | nil => cases member
  | cons piece others inductionHypothesis =>
      rw [List.flatMap_cons, List.flatMap_cons] at fixed
      cases piece with
      | copied char =>
          rcases List.mem_cons.mp member with impossible | later
          · cases impossible
          · exact inductionHypothesis ofVariable.tail (List.cons.inj fixed).2 later
      | replaced found word' =>
          obtain ⟨same, inside, noClosing, shape⟩ :=
            ofVariable found word' List.mem_cons_self
          subst same
          simp only [Piece.result, Piece.source] at fixed
          rw [itself, shape, List.append_assoc, List.append_assoc] at fixed
          obtain ⟨equal, remaining⟩ := append_closing_inj absent noClosing fixed
          rcases List.mem_cons.mp member with here | later
          · cases here
            rw [itself, shape, equal]
          · exact inductionHypothesis ofVariable.tail remaining later

/-- A string that stays the same has no placeholders but the value itself. -/
theorem eq_of_replaceAll_eq
    (plain : IsPlain entry.1.toList) (verbatim : ¬ HasSpecial entry.2.toList)
    {string word : List Char}
    (fixed : replaceAll entry.1.toList entry.2.toList string = string)
    (placeholder : IsPlaceholder entry.1.toList word) (within : word <:+: string) :
    word = entry.2.toList := by
  have reads := reads_scan plain.forall_mem string
  obtain ⟨left, right, itself⟩ := within
  obtain ⟨found, present, member⟩ :=
    reads.mem_of_placeholder plain.forall_mem List.mem_cons_self placeholder
      (itself.symm.trans (List.append_assoc left word right))
  cases List.mem_singleton.mp present
  have same : (scan [entry] 0 string).flatMap Piece.result = string :=
    (replaceFrom_eq_of_reads plain verbatim reads []).symm.trans fixed
  refine (reads.ofVariable plain).eq_of_fixed ?_
    (reads.count_value plain same member) member
  rw [reads.source_eq]
  exact same

end Fixed

/-! ## Text around a value -/

section Spilled

variable {key value word left right : List Char}

theorem IsPlaceholder.noClosing_of_append
    (placeholder : IsPlaceholder key (left ++ right)) (plain : IsPlain key)
    (remains : right ≠ []) : '\x7d' ∉ left := by
  obtain ⟨inside, shape, _, noClosing⟩ := placeholder.shape plain
  rcases List.eq_nil_or_concat right with empty | ⟨front, last, itself⟩
  · exact absurd empty remains
  · rw [itself, List.concat_eq_append, ← List.append_assoc, ← List.cons_append]
      at shape
    have fronts := (List.append_inj' shape rfl).1
    intro member
    have within : '\x7d' ∈ '\x7b' :: inside := by
      rw [← fronts]
      exact List.mem_append_left front member
    rcases List.mem_cons.mp within with same | further
    · exact absurd same (by decide)
    · exact noClosing further

theorem IsPlaceholder.noOpening_of_append
    (placeholder : IsPlaceholder key (left ++ right)) (plain : IsPlain key)
    (begins : left ≠ []) : '\x7b' ∉ right := by
  intro member
  obtain ⟨front, rest, itself⟩ := List.append_of_mem member
  have split : left ++ right = (left ++ front) ++ '\x7b' :: rest := by
    rw [itself, List.append_assoc]
  exact placeholder.tail_ne plain (List.append_ne_nil_of_left_ne_nil begins front)
    split rest rfl

/-- The word is in a text that has the value at its one placeholder. -/
theorem Spills.exists_surrounds
    (spills : Spills value word) (placeholder : IsPlaceholder key word)
    (plain : IsPlain key) :
    ∃ left right, Surrounds left right ∧ word <:+: left ++ (value ++ right) := by
  cases spills with
  | @across left right before after =>
      refine ⟨left, right, ⟨?_, ?_⟩, List.infix_rfl⟩
      · exact placeholder.noClosing_of_append plain
          (List.append_ne_nil_of_right_ne_nil value after)
      · rw [← List.append_assoc] at placeholder
        exact placeholder.noOpening_of_append plain
          (List.append_ne_nil_of_left_ne_nil before value)
  | @ending left first rest before nonempty split =>
      refine ⟨left, [], ⟨?_, List.not_mem_nil⟩, ?_⟩
      · exact placeholder.noClosing_of_append plain nonempty
      · refine ⟨[], rest, ?_⟩
        rw [split]
        simp
  | @beginning first rest right nonempty after split =>
      refine ⟨[], right, ⟨List.not_mem_nil, ?_⟩, ?_⟩
      · exact placeholder.noOpening_of_append plain nonempty
      · refine ⟨first, [], ?_⟩
        rw [split]
        simp

theorem IsPlaceholder.widen_left
    {rest : List Char} (placeholder : IsPlaceholder key ('\x7b' :: rest)) :
    IsPlaceholder key ('\x7b' :: ' ' :: rest) := by
  obtain ⟨left, right, leftWhite, rightWhite, itself⟩ := placeholder
  refine ⟨' ' :: left, right, ?_, rightWhite, ?_⟩
  · intro char member
    rcases List.mem_cons.mp member with same | further
    · rw [same]
      decide
    · exact leftWhite char further
  · rw [(List.cons.inj itself).2]
    rfl

theorem IsPlaceholder.widen_right
    {front : List Char} (placeholder : IsPlaceholder key (front ++ ['\x7d'])) :
    IsPlaceholder key (front ++ [' ', '\x7d']) := by
  obtain ⟨left, right, leftWhite, rightWhite, itself⟩ := placeholder
  refine ⟨left, right ++ [' '], leftWhite, ?_, ?_⟩
  · intro char member
    rcases List.mem_append.mp member with earlier | last
    · exact rightWhite char earlier
    · rw [List.mem_singleton.mp last]
      decide
  · rw [← List.cons_append] at itself
    rw [(List.append_inj' itself rfl).1]
    simp

/-- A space more in the part that is not of the value. -/
theorem Spills.exists_longer
    (spills : Spills value word) (placeholder : IsPlaceholder key word) :
    ∃ longer, IsPlaceholder key longer ∧ Spills value longer ∧
      longer.length = word.length + 1 := by
  obtain ⟨others, opens⟩ := placeholder.exists_cons
  cases spills with
  | @across left right before after =>
      cases left with
      | nil => exact absurd rfl before
      | cons first rest =>
          have brace := (List.cons.inj opens).1
          rw [brace] at placeholder ⊢
          exact ⟨_, placeholder.widen_left,
            .across (List.cons_ne_nil _ (' ' :: rest)) after, rfl⟩
  | @ending left final rest before nonempty split =>
      cases left with
      | nil => exact absurd rfl before
      | cons first front =>
          have brace := (List.cons.inj opens).1
          rw [brace] at placeholder ⊢
          exact ⟨_, placeholder.widen_left,
            .ending (List.cons_ne_nil _ (' ' :: front)) nonempty split, rfl⟩
  | @beginning first rest right nonempty after split =>
      have whole := placeholder
      obtain ⟨_, _, _, _, closes⟩ := whole
      rcases List.eq_nil_or_concat right with empty | ⟨front, last, itself⟩
      · exact absurd empty after
      · rw [List.concat_eq_append] at itself
        subst itself
        rw [← List.append_assoc, ← List.cons_append] at closes
        have brace := List.cons.inj (List.append_inj' closes rfl).2
        rw [brace.1, ← List.append_assoc] at placeholder
        have widened := placeholder.widen_right
        rw [List.append_assoc] at widened
        refine ⟨_, widened, .beginning nonempty ?_ split, ?_⟩
        · simp
        · simp only [List.length_append, List.length_cons, List.length_nil]
          omega

end Spilled

/-! ## Substitution at once -/

/-- Simultaneous and verbatim, in every order of the variables. -/
def SubstitutedOnce (entries : List (String × String)) : Prop :=
  ∀ ordered : List (String × String), ordered.Perm entries →
    ∀ template, substitute template ordered = substituteOnce entries template

/-- The placeholder with so many spaces on the left. -/
def spaced (count : ℕ) (key : List Char) : List Char :=
  '\x7b' :: (List.replicate count ' ' ++ key ++ [] ++ ['\x7d'])

theorem isPlaceholder_spaced (count : ℕ) (key : List Char) :
    IsPlaceholder key (spaced count key) := by
  refine ⟨List.replicate count ' ', [], ?_, ?_, rfl⟩
  · intro char member
    rw [List.eq_of_mem_replicate member]
    decide
  · intro char member
    cases member

theorem surrounds_spaces (count : ℕ) :
    Surrounds (List.replicate count ' ') (List.replicate count ' ') where
  noClosing := fun member => absurd (List.eq_of_mem_replicate member) (by decide)
  noOpening := fun member => absurd (List.eq_of_mem_replicate member) (by decide)

section Necessity

variable {left right word : List Char}

theorem AreVariables.nodup (named : AreVariables entries) : entries.Nodup :=
  List.Nodup.of_map Prod.fst named.distinct

/-- When the variable is the last one, its value is inserted as it is. -/
theorem SubstitutedOnce.getSubstitution_eq
    (once : SubstitutedOnce entries) (named : AreVariables entries)
    (member : entry ∈ entries) (surrounds : Surrounds left right)
    (placeholder : IsPlaceholder entry.1.toList word) :
    getSubstitution left word right entry.2.toList = entry.2.toList := by
  have reordered : (entries.erase entry ++ [entry]).Perm entries :=
    List.perm_append_comm.trans (List.perm_cons_erase member).symm
  have different (other : String × String) (present : other ∈ entries.erase entry) :
      other ∈ entries ∧ entry ≠ other := by
    obtain ⟨distinct, isOther⟩ := named.nodup.mem_erase_iff.mp present
    exact ⟨isOther, Ne.symm distinct⟩
  have same := once _ reordered (.ofList (left ++ (word ++ right)))
  rw [surrounds.substitute_eq named member placeholder different [],
    surrounds.substituteOnce_eq named member placeholder] at same
  have texts := String.ofList_injective same
  exact List.append_cancel_right (List.append_cancel_left texts)

/-- Special dollar signs are noticed in a long template. -/
theorem SubstitutedOnce.verbatim
    (once : SubstitutedOnce entries) (named : AreVariables entries)
    (member : entry ∈ entries) : ¬ HasSpecial entry.2.toList := by
  intro special
  have same :=
    once.getSubstitution_eq named member
      (surrounds_spaces (entry.2.toList.length + 1))
      (isPlaceholder_spaced (entry.2.toList.length + 1) entry.1.toList)
  refine getSubstitution_ne _ _ _ special ?_ ?_ ?_ same
  · rw [List.length_replicate]
    omega
  · simp only [spaced, List.length_cons, List.length_append, List.length_replicate]
    omega
  · rw [List.length_replicate]
    omega

/-- Replacing another variable afterwards changes nothing. -/
theorem SubstitutedOnce.replaceAll_eq
    (once : SubstitutedOnce entries) (named : AreVariables entries)
    (member : entry ∈ entries) (isOther : other ∈ entries)
    (different : entry ≠ other) (surrounds : Surrounds left right) :
    replaceAll other.1.toList other.2.toList (left ++ (entry.2.toList ++ right)) =
      left ++ (entry.2.toList ++ right) := by
  have placeholder := isPlaceholder_spaced 0 entry.1.toList
  have present : entry ∈ entries.erase other :=
    named.nodup.mem_erase_iff.mpr ⟨different, member⟩
  have reordered :
      ((entries.erase other).erase entry ++ [entry, other]).Perm entries := by
    refine List.perm_append_comm.trans (List.Perm.trans (.swap other entry _) ?_)
    exact
      ((List.perm_cons_erase present).symm.cons other).trans
        (List.perm_cons_erase isOther).symm
  have apart (further : String × String)
      (remaining : further ∈ (entries.erase other).erase entry) :
      further ∈ entries ∧ entry ≠ further := by
    obtain ⟨distinct, isFurther⟩ :=
      (named.nodup.erase other).mem_erase_iff.mp remaining
    exact ⟨List.mem_of_mem_erase isFurther, Ne.symm distinct⟩
  have same := once _ reordered (.ofList (left ++ (spaced 0 entry.1.toList ++ right)))
  rw [surrounds.substitute_eq named member placeholder apart [other],
    surrounds.substituteOnce_eq named member placeholder,
    once.getSubstitution_eq named member surrounds placeholder] at same
  exact String.ofList_injective same

/-- A placeholder of another variable that the value becomes a part of is the value
of the other one. -/
theorem SubstitutedOnce.eq_of_infix
    (once : SubstitutedOnce entries) (named : AreVariables entries)
    (member : entry ∈ entries) (isOther : other ∈ entries)
    (different : entry ≠ other) (surrounds : Surrounds left right)
    (placeholder : IsPlaceholder other.1.toList word)
    (within : word <:+: left ++ (entry.2.toList ++ right)) :
    word = other.2.toList :=
  eq_of_replaceAll_eq (named.isPlain isOther) (once.verbatim named isOther)
    (once.replaceAll_eq named member isOther different surrounds) placeholder within

theorem SubstitutedOnce.apart
    (once : SubstitutedOnce entries) (named : AreVariables entries)
    (member : entry ∈ entries) (isOther : other ∈ entries)
    (different : entry ≠ other)
    (placeholder : IsPlaceholder other.1.toList word) :
    ¬ Spills entry.2.toList word := by
  intro spills
  have isValue
      {word : List Char} (placeholder : IsPlaceholder other.1.toList word)
      (spills : Spills entry.2.toList word) : word = other.2.toList := by
    obtain ⟨left, right, surrounds, within⟩ :=
      spills.exists_surrounds placeholder (named.isPlain isOther)
    exact once.eq_of_infix named member isOther different surrounds placeholder within
  obtain ⟨longer, placeholder', spills', length⟩ := spills.exists_longer placeholder
  rw [isValue placeholder spills, isValue placeholder' spills'] at length
  exact absurd length (Nat.ne_of_lt (Nat.lt_succ_self _))

theorem SubstitutedOnce.areHarmless
    (once : SubstitutedOnce entries) (named : AreVariables entries) :
    AreHarmless entries where
  verbatim := fun _ member => once.verbatim named member
  apart := fun _ member _ isOther different _ placeholder =>
    once.apart named member isOther different placeholder
  inside := by
    intro inserted member found isOther different word placeholder within
    have alone : Surrounds [] [] := ⟨List.not_mem_nil, List.not_mem_nil⟩
    refine once.eq_of_infix named member isOther different alone placeholder ?_
    rw [List.nil_append, List.append_nil]
    exact within

end Necessity

/-- Variables are substituted at once exactly if their values are harmless. -/
theorem substitutedOnce_iff (named : AreVariables entries) :
    SubstitutedOnce entries ↔ AreHarmless entries := by
  constructor
  · intro once
    exact once.areHarmless named
  · intro harmless ordered reordered template
    exact harmless.substitute_eq named reordered template

end Amq.StringUtil
