import Amq.StringUtil

/-!
# Placeholders

A placeholder of a variable is its name in braces, with white space around it.
Its only opening brace is its first character and its only closing brace its last
one, so that placeholders cannot overlap.  A string is therefore made of its
placeholders and of other characters in one way only, whether it is read for one
variable or for several.
-/

namespace Amq.StringUtil

/-- A text that the regular expression of a variable matches. -/
def IsPlaceholder (key word : List Char) : Prop :=
  ∃ left right,
    (∀ char ∈ left, isWhiteSpace char = true) ∧
      (∀ char ∈ right, isWhiteSpace char = true) ∧
        word = '\x7b' :: (left ++ key ++ right ++ ['\x7d'])

/-- The letters, digits and the underscore of ASCII. -/
def isIdentifierChar (char : Char) : Bool :=
  let code := char.toNat
  (0x41 ≤ code && code ≤ 0x5A) || (0x61 ≤ code && code ≤ 0x7A) ||
    (0x30 ≤ code && code ≤ 0x39) || code == 0x5F

/-- Letters, digits and underscores that do not begin with a digit. -/
structure IsIdentifier (name : List Char) : Prop where
  nonempty : name ≠ []
  chars : ∀ char ∈ name, isIdentifierChar char = true
  first : ∀ char ∈ name.head?, char.isDigit = false

theorem isIdentifier_of_all
    {name : List Char} (nonempty : name ≠ [])
    (chars : name.all isIdentifierChar = true)
    (first : (name.head?.all fun char => !char.isDigit) = true) :
    IsIdentifier name where
  nonempty := nonempty
  chars := List.all_eq_true.mp chars
  first := by
    intro char member
    rw [member] at first
    simpa using first

/-- A name of which a regular expression and a placeholder make nothing else. -/
structure IsPlain (name : List Char) : Prop where
  nonempty : name ≠ []
  not_space : ∀ char ∈ name, isWhiteSpace char = false
  not_opening : '\x7b' ∉ name
  not_closing : '\x7d' ∉ name

theorem isWhiteSpace_of_identifierChar
    {char : Char} (identifier : isIdentifierChar char = true) :
    isWhiteSpace char = false := by
  simp only [isIdentifierChar, Bool.or_eq_true, Bool.and_eq_true,
    decide_eq_true_eq, beq_iff_eq] at identifier
  simp only [isWhiteSpace, Bool.or_eq_false_iff, Bool.and_eq_false_iff,
    decide_eq_false_iff_not, beq_eq_false_iff_ne]
  omega

theorem IsIdentifier.isPlain
    {name : List Char} (identifier : IsIdentifier name) : IsPlain name where
  nonempty := identifier.nonempty
  not_space := fun char member =>
    isWhiteSpace_of_identifierChar (identifier.chars char member)
  not_opening := fun member =>
    absurd (identifier.chars _ member) (by decide)
  not_closing := fun member =>
    absurd (identifier.chars _ member) (by decide)

/-! ## The shape of a placeholder -/

section Shape

variable {key word : List Char}

theorem not_brace_of_space
    {spaces : List Char} (white : ∀ char ∈ spaces, isWhiteSpace char = true) :
    '\x7b' ∉ spaces ∧ '\x7d' ∉ spaces := by
  constructor
  · intro member
    exact absurd (white _ member) (by decide)
  · intro member
    exact absurd (white _ member) (by decide)

/-- Inside of its braces a placeholder has no others. -/
theorem IsPlaceholder.shape
    (placeholder : IsPlaceholder key word) (plain : IsPlain key) :
    ∃ inside,
      word = '\x7b' :: (inside ++ ['\x7d']) ∧ '\x7b' ∉ inside ∧ '\x7d' ∉ inside := by
  obtain ⟨left, right, leftWhite, rightWhite, itself⟩ := placeholder
  have leftPlain := not_brace_of_space leftWhite
  have rightPlain := not_brace_of_space rightWhite
  refine ⟨left ++ key ++ right, itself, ?_, ?_⟩
  · simp [leftPlain.1, rightPlain.1, plain.not_opening]
  · simp [leftPlain.2, rightPlain.2, plain.not_closing]

theorem IsPlaceholder.count_closing
    (placeholder : IsPlaceholder key word) (plain : IsPlain key) :
    word.count '\x7d' = 1 := by
  obtain ⟨inside, itself, _, noClosing⟩ := placeholder.shape plain
  rw [itself, List.count_cons_of_ne (by decide), List.count_append,
    List.count_eq_zero_of_not_mem noClosing]
  rfl

theorem IsPlaceholder.count_opening
    (placeholder : IsPlaceholder key word) (plain : IsPlain key) :
    word.count '\x7b' = 1 := by
  obtain ⟨inside, itself, noOpening, _⟩ := placeholder.shape plain
  rw [itself, List.count_cons_self, List.count_append,
    List.count_eq_zero_of_not_mem noOpening]
  rfl

theorem IsPlaceholder.exists_cons (placeholder : IsPlaceholder key word) :
    ∃ others, word = '\x7b' :: others := by
  obtain ⟨left, right, _, _, itself⟩ := placeholder
  exact ⟨_, itself⟩

/-- Its characters are braces, white space and those of the name. -/
theorem IsPlaceholder.not_mem
    {char : Char} (placeholder : IsPlaceholder key word) (absent : char ∉ key)
    (visible : isWhiteSpace char = false) (noOpening : char ≠ '\x7b')
    (noClosing : char ≠ '\x7d') : char ∉ word := by
  obtain ⟨left, right, leftWhite, rightWhite, itself⟩ := placeholder
  have notSpace
      {spaces : List Char} (white : ∀ char ∈ spaces, isWhiteSpace char = true) :
      char ∉ spaces := by
    intro member
    rw [white char member] at visible
    cases visible
  rw [itself]
  simp [absent, noOpening, noClosing, notSpace leftWhite, notSpace rightWhite]

theorem dropWhile_space_append
    {spaces rest : List Char} (white : ∀ char ∈ spaces, isWhiteSpace char = true) :
    (spaces ++ rest).dropWhile isWhiteSpace = rest.dropWhile isWhiteSpace := by
  induction spaces with
  | nil => rfl
  | cons char others inductionHypothesis =>
      rw [List.cons_append, List.dropWhile_cons_of_pos (white char List.mem_cons_self)]
      exact inductionHypothesis fun other member =>
        white other (List.mem_cons_of_mem char member)

theorem IsPlain.dropWhile_append
    (plain : IsPlain key) (rest : List Char) :
    (key ++ rest).dropWhile isWhiteSpace = key ++ rest := by
  cases key with
  | nil => exact absurd rfl plain.nonempty
  | cons char others =>
      have notSpace := plain.not_space char List.mem_cons_self
      rw [List.cons_append, List.dropWhile_cons_of_neg (by rw [notSpace]; decide)]

/-- The white space at the start of a string, and what comes after it. -/
theorem exists_space_append (string : List Char) :
    ∃ spaces, (∀ char ∈ spaces, isWhiteSpace char = true) ∧
      string = spaces ++ string.dropWhile isWhiteSpace := by
  refine ⟨string.takeWhile isWhiteSpace, ?_, ?_⟩
  · intro char member
    exact List.all_eq_true.mp List.all_takeWhile char member
  · exact List.takeWhile_append_dropWhile.symm

theorem matchVariable_placeholder
    (plain : IsPlain key) (placeholder : IsPlaceholder key word)
    (after : List Char) : matchVariable key (word ++ after) = some after := by
  obtain ⟨left, right, leftWhite, rightWhite, itself⟩ := placeholder
  have inside :
      (left ++ key ++ right ++ ['\x7d'] ++ after).dropWhile isWhiteSpace =
        key ++ (right ++ '\x7d' :: after) := by
    rw [List.append_assoc, List.append_assoc, List.append_assoc,
      dropWhile_space_append leftWhite, plain.dropWhile_append]
    rfl
  have closing :
      (right ++ '\x7d' :: after).dropWhile isWhiteSpace = '\x7d' :: after := by
    rw [dropWhile_space_append rightWhite]
    rfl
  rw [itself, List.cons_append]
  simp only [matchVariable, inside, List.drop_left, closing]
  exact if_pos (by simp)

theorem placeholder_of_matchVariable
    {string after : List Char} (matched : matchVariable key string = some after) :
    ∃ word, IsPlaceholder key word ∧ string = word ++ after := by
  unfold matchVariable at matched
  split at matched
  · rename_i rest
    dsimp only at matched
    split at matched
    · rename_i isPrefix
      obtain ⟨beyond, named⟩ := List.isPrefixOf_iff_prefix.mp isPrefix
      rw [← named, List.drop_left] at matched
      split at matched
      · rename_i later closing
        cases matched
        obtain ⟨left, leftWhite, before⟩ := exists_space_append rest
        obtain ⟨right, rightWhite, behind⟩ := exists_space_append beyond
        rw [closing] at behind
        rw [← named, behind] at before
        refine ⟨_, ⟨left, right, leftWhite, rightWhite, rfl⟩, ?_⟩
        rw [before]
        simp
      · cases matched
    · cases matched
  · cases matched

/-- Strings that are the same are so up to their first closing brace. -/
theorem append_closing_inj
    {inside inside' rest rest' : List Char}
    (absent : '\x7d' ∉ inside) (absent' : '\x7d' ∉ inside')
    (same : inside ++ '\x7d' :: rest = inside' ++ '\x7d' :: rest') :
    inside = inside' ∧ rest = rest' := by
  induction inside generalizing inside' with
  | nil =>
      cases inside' with
      | nil => exact ⟨rfl, (List.cons.inj same).2⟩
      | cons char others =>
          have first := (List.cons.inj same).1
          exact absurd (first ▸ List.mem_cons_self) absent'
  | cons char others inductionHypothesis =>
      cases inside' with
      | nil =>
          have first := (List.cons.inj same).1
          exact absurd (first ▸ List.mem_cons_self) absent
      | cons char' others' =>
          obtain ⟨first, later⟩ := List.cons.inj same
          obtain ⟨equal, further⟩ :=
            inductionHypothesis
              (fun member => absent (List.mem_cons_of_mem char member))
              (fun member => absent' (List.mem_cons_of_mem char' member)) later
          exact ⟨by rw [first, equal], further⟩

/-- A placeholder is as long as it is up to its only closing brace. -/
theorem IsPlaceholder.eq_of_append
    {other word' rest rest' : List Char}
    (placeholder : IsPlaceholder key word) (plain : IsPlain key)
    (placeholder' : IsPlaceholder other word') (plain' : IsPlain other)
    (same : word ++ rest = word' ++ rest') : word = word' ∧ rest = rest' := by
  obtain ⟨inside, itself, _, noClosing⟩ := placeholder.shape plain
  obtain ⟨inside', itself', _, noClosing'⟩ := placeholder'.shape plain'
  rw [itself, itself'] at same
  simp only [List.cons_append, List.append_assoc, List.nil_append,
    List.cons.injEq, true_and] at same
  obtain ⟨equal, later⟩ := append_closing_inj noClosing noClosing' same
  rw [itself, itself', equal]
  exact ⟨rfl, later⟩

/-- The name of a placeholder can be read off it. -/
theorem IsPlain.takeWhile_append
    (plain : IsPlain key) {right : List Char}
    (white : ∀ char ∈ right, isWhiteSpace char = true) :
    (key ++ (right ++ ['\x7d'])).takeWhile
        (fun char => !isWhiteSpace char && char != '\x7d') = key := by
  rw [List.takeWhile_append_of_pos]
  · cases right with
    | nil => simp
    | cons char others =>
        have space := white char List.mem_cons_self
        simp [space]
  · intro char member
    have notSpace := plain.not_space char member
    have notClosing : char ≠ '\x7d' := fun same => plain.not_closing (same ▸ member)
    simp [notSpace, notClosing]

/-- A placeholder tells its variable. -/
theorem IsPlaceholder.key_eq
    {other : List Char}
    (placeholder : IsPlaceholder key word) (plain : IsPlain key)
    (placeholder' : IsPlaceholder other word) (plain' : IsPlain other) :
    key = other := by
  obtain ⟨left, right, leftWhite, rightWhite, itself⟩ := placeholder
  obtain ⟨left', right', leftWhite', rightWhite', itself'⟩ := placeholder'
  rw [itself] at itself'
  have inside := congrArg (List.dropWhile isWhiteSpace) (List.cons.inj itself').2
  simp only [List.append_assoc] at inside
  rw [dropWhile_space_append leftWhite, dropWhile_space_append leftWhite',
    plain.dropWhile_append, plain'.dropWhile_append] at inside
  calc
    key = _ := (plain.takeWhile_append rightWhite).symm
    _ = _ := congrArg (List.takeWhile _) inside
    _ = other := plain'.takeWhile_append rightWhite'

end Shape

/-! ## A string and its placeholders -/

/-- A part of a string that is read for some variables. -/
inductive Piece where
  | copied (char : Char)
  /-- A placeholder of the variable with this entry. -/
  | replaced (entry : String × String) (word : List Char)
  deriving DecidableEq

namespace Piece

/-- The text that the piece was read from. -/
def source : Piece → List Char
  | .copied char => [char]
  | .replaced _ word => word

/-- The text that takes its place. -/
def result : Piece → List Char
  | .copied char => [char]
  | .replaced entry _ => entry.2.toList

def isReplaced : Piece → Bool
  | .copied _ => false
  | .replaced _ _ => true

end Piece

/-- The variable that has a placeholder at the start of the string. -/
def findVariable (entries : List (String × String)) (string : List Char) :
    Option ((String × String) × List Char) :=
  entries.findSome? fun entry =>
    (matchVariable entry.1.toList string).map fun after => (entry, after)

/-- The pieces of a string from a position on, read once for all variables.  So
many characters of the rest belong to a placeholder that has been read. -/
def scan (entries : List (String × String)) : ℕ → List Char → List Piece
  | _, [] => []
  | matched + 1, _ :: rest => scan entries matched rest
  | 0, char :: rest =>
      match findVariable entries (char :: rest) with
      | some (entry, after) =>
          let length := rest.length - after.length
          .replaced entry ((char :: rest).take (length + 1)) ::
            scan entries length rest
      | none => .copied char :: scan entries 0 rest

/-- No variable has a placeholder at the start of the string. -/
def NoneStarts (entries : List (String × String)) (string : List Char) : Prop :=
  ∀ entry ∈ entries, ∀ word after,
    IsPlaceholder entry.1.toList word → string ≠ word ++ after

/-- The pieces of a string. -/
inductive Reads (entries : List (String × String)) :
    List Char → List Piece → Prop
  | nil : Reads entries [] []
  | copied {char : Char} {rest : List Char} {pieces : List Piece}
      (none : NoneStarts entries (char :: rest))
      (reads : Reads entries rest pieces) :
      Reads entries (char :: rest) (.copied char :: pieces)
  | replaced {entry : String × String} {word rest : List Char}
      {pieces : List Piece}
      (member : entry ∈ entries)
      (placeholder : IsPlaceholder entry.1.toList word)
      (reads : Reads entries rest pieces) :
      Reads entries (word ++ rest) (.replaced entry word :: pieces)

section Reads

variable {entries : List (String × String)}

theorem IsPlain.forall_mem
    {entry : String × String} (plain : IsPlain entry.1.toList) :
    ∀ found ∈ [entry], IsPlain found.1.toList := by
  intro found member
  rw [List.mem_singleton.mp member]
  exact plain

theorem exists_placeholder_of_starts
    {string : List Char} (starts : ¬ NoneStarts entries string) :
    ∃ entry ∈ entries, ∃ word after,
      IsPlaceholder entry.1.toList word ∧ string = word ++ after := by
  by_contra nowhere
  apply starts
  intro entry member word after placeholder itself
  exact nowhere ⟨entry, member, word, after, placeholder, itself⟩

theorem scan_matched (word rest : List Char) :
    scan entries word.length (word ++ rest) = scan entries 0 rest := by
  induction word with
  | nil => rfl
  | cons char others inductionHypothesis => exact inductionHypothesis

/-- Scanning a string reads its pieces. -/
theorem reads_scan
    (plain : ∀ entry ∈ entries, IsPlain entry.1.toList) (string : List Char) :
    Reads entries string (scan entries 0 string) := by
  induction length : string.length using Nat.strongRecOn generalizing string with
  | ind bound inductionHypothesis =>
      cases string with
      | nil => exact .nil
      | cons char rest =>
          unfold scan
          cases found : findVariable entries (char :: rest) with
          | none =>
              refine .copied ?_ (inductionHypothesis rest.length ?_ rest rfl)
              · intro entry member word after placeholder itself
                have none :=
                  List.findSome?_eq_none_iff.mp found entry member
                have matched :=
                  matchVariable_placeholder (plain entry member) placeholder after
                rw [← itself] at matched
                rw [matched] at none
                cases none
              · rw [← length]
                exact Nat.lt_succ_self rest.length
          | some hit =>
              obtain ⟨entry, member, hits⟩ :=
                List.exists_of_findSome?_eq_some found
              obtain ⟨after, matched, same⟩ := Option.map_eq_some_iff.mp hits
              subst same
              obtain ⟨word, placeholder, itself⟩ :=
                placeholder_of_matchVariable matched
              obtain ⟨others, shape⟩ := placeholder.exists_cons
              rw [shape, List.cons_append] at itself
              obtain ⟨first, restItself⟩ := List.cons.inj itself
              have taken : rest.length - after.length = others.length := by
                rw [restItself, List.length_append]
                omega
              dsimp only
              rw [taken, first, restItself, scan_matched, ← List.cons_append,
                ← shape]
              have whole :
                  (word ++ after).take (others.length + 1) = word := by
                rw [shape]
                exact List.take_left' rfl
              rw [whole]
              refine .replaced member placeholder
                (inductionHypothesis after.length ?_ after rfl)
              rw [← length, List.length_cons, restItself, List.length_append]
              omega

theorem Reads.source_eq
    {string : List Char} {pieces : List Piece}
    (reads : Reads entries string pieces) :
    pieces.flatMap Piece.source = string := by
  induction reads with
  | nil => rfl
  | copied none reads inductionHypothesis =>
      rw [List.flatMap_cons, inductionHypothesis]
      rfl
  | replaced member placeholder reads inductionHypothesis =>
      rw [List.flatMap_cons, inductionHypothesis]
      rfl

theorem Reads.placeholder_of_mem
    {string word : List Char} {pieces : List Piece} {entry : String × String}
    (reads : Reads entries string pieces)
    (member : Piece.replaced entry word ∈ pieces) :
    entry ∈ entries ∧ IsPlaceholder entry.1.toList word := by
  induction reads with
  | nil => cases member
  | copied none reads inductionHypothesis =>
      rcases List.mem_cons.mp member with impossible | later
      · cases impossible
      · exact inductionHypothesis later
  | replaced isEntry placeholder reads inductionHypothesis =>
      rcases List.mem_cons.mp member with same | later
      · cases same
        exact ⟨isEntry, placeholder⟩
      · exact inductionHypothesis later

/-- No placeholder begins inside of another one. -/
theorem IsPlaceholder.tail_ne
    {key word left right : List Char}
    (placeholder : IsPlaceholder key word) (plain : IsPlain key)
    (begins : left ≠ []) (split : word = left ++ right) (rest : List Char) :
    right ≠ '\x7b' :: rest := by
  intro opens
  obtain ⟨inside, itself, noOpening, _⟩ := placeholder.shape plain
  cases left with
  | nil => exact begins rfl
  | cons first others =>
      rw [itself, opens] at split
      have tails := (List.cons.inj split).2
      have member : '\x7b' ∈ inside ++ ['\x7d'] := by
        rw [tails]
        exact List.mem_append_right others List.mem_cons_self
      rcases List.mem_append.mp member with within | last
      · exact noOpening within
      · exact absurd (List.mem_singleton.mp last) (by decide)

/-- Reading a string finds each of its placeholders. -/
theorem Reads.mem_of_placeholder
    (plain : ∀ entry ∈ entries, IsPlain entry.1.toList)
    {string left word right : List Char} {pieces : List Piece}
    {entry : String × String} (reads : Reads entries string pieces)
    (member : entry ∈ entries) (placeholder : IsPlaceholder entry.1.toList word)
    (itself : string = left ++ (word ++ right)) :
    ∃ other ∈ entries, Piece.replaced other word ∈ pieces := by
  induction reads generalizing left with
  | nil =>
      obtain ⟨others, shape⟩ := placeholder.exists_cons
      rw [shape] at itself
      simp at itself
  | @copied char rest pieces none reads inductionHypothesis =>
      cases left with
      | nil => exact absurd itself (none entry member word right placeholder)
      | cons first others =>
          obtain ⟨other, isEntry, later⟩ :=
            inductionHypothesis (List.cons.inj itself).2
          exact ⟨other, isEntry, List.mem_cons_of_mem _ later⟩
  | @replaced found word' rest pieces isEntry placeholder' reads
      inductionHypothesis =>
      rcases List.append_eq_append_iff.mp itself with
        ⟨further, _, later⟩ | ⟨crossing, split, later⟩
      · obtain ⟨other, isOther, member⟩ := inductionHypothesis later
        exact ⟨other, isOther, List.mem_cons_of_mem _ member⟩
      · cases left with
        | nil =>
            rw [List.nil_append] at split
            rw [← split] at later
            obtain ⟨same, _⟩ :=
              placeholder.eq_of_append (plain entry member) placeholder'
                (plain found isEntry) later
            exact ⟨found, isEntry, by rw [same]; exact List.mem_cons_self⟩
        | cons first others =>
            cases crossing with
            | nil =>
                have behind : rest = [] ++ (word ++ right) := later.symm
                obtain ⟨other, isOther, member⟩ := inductionHypothesis behind
                exact ⟨other, isOther, List.mem_cons_of_mem _ member⟩
            | cons opening beyond =>
                obtain ⟨others', shape⟩ := placeholder.exists_cons
                rw [shape] at later
                have opens := (List.cons.inj later).1
                have notOpening :=
                  placeholder'.tail_ne (plain found isEntry)
                    (List.cons_ne_nil first others) split beyond
                exact absurd (by rw [opens]) notOpening

theorem Reads.infix_of_mem
    {string word : List Char} {pieces : List Piece} {entry : String × String}
    (reads : Reads entries string pieces)
    (member : Piece.replaced entry word ∈ pieces) : word <:+: string := by
  obtain ⟨before, after, split⟩ := List.append_of_mem member
  refine ⟨before.flatMap Piece.source, after.flatMap Piece.source, ?_⟩
  rw [← reads.source_eq, split, List.flatMap_append, List.flatMap_cons,
    List.append_assoc]
  rfl

/-- Each placeholder of a variable has a character so many times, and the values in
their place have it as often as the value does. -/
theorem Reads.count_eq
    {entry : String × String} {char : Char} {times : ℕ}
    (counts : ∀ word, IsPlaceholder entry.1.toList word → word.count char = times)
    {string : List Char} {pieces : List Piece}
    (reads : Reads [entry] string pieces) :
    (pieces.flatMap Piece.result).count char +
        pieces.countP Piece.isReplaced * times =
      string.count char +
        pieces.countP Piece.isReplaced * entry.2.toList.count char := by
  induction reads with
  | nil => simp
  | @copied first rest pieces none reads inductionHypothesis =>
      have uncounted :
          (Piece.copied first :: pieces).countP Piece.isReplaced =
            pieces.countP Piece.isReplaced :=
        List.countP_cons_of_neg Bool.false_ne_true
      have split : first :: rest = [first] ++ rest := rfl
      rw [List.flatMap_cons, uncounted, split, List.count_append,
        List.count_append]
      simp only [Piece.result]
      omega
  | @replaced found word rest pieces member placeholder reads
      inductionHypothesis =>
      cases List.mem_singleton.mp member
      have counted :
          (Piece.replaced entry word :: pieces).countP Piece.isReplaced =
            pieces.countP Piece.isReplaced + 1 :=
        List.countP_cons_of_pos rfl
      have itself := counts word placeholder
      rw [List.flatMap_cons, counted, List.count_append, List.count_append, itself,
        Nat.add_mul, Nat.add_mul]
      simp only [Piece.result]
      omega

theorem Reads.result_eq
    {string : List Char} {pieces : List Piece}
    (reads : Reads entries string pieces)
    (none : ∀ entry word, Piece.replaced entry word ∉ pieces) :
    pieces.flatMap Piece.result = string := by
  rw [← reads.source_eq]
  refine List.flatMap_congr ?_
  intro piece member
  cases piece with
  | copied char => rfl
  | replaced entry word => exact absurd member (none entry word)

/-- Placeholders do not go beyond a character that they do not have. -/
theorem Reads.append_separated
    {separator : Char} {string tail : List Char} {pieces pieces' : List Piece}
    (absent :
      ∀ entry ∈ entries, ∀ word, IsPlaceholder entry.1.toList word →
        separator ∉ word)
    (reads : Reads entries string pieces)
    (after : Reads entries (separator :: tail) pieces') :
    Reads entries (string ++ separator :: tail) (pieces ++ pieces') := by
  induction reads with
  | nil => exact after
  | @copied char rest pieces none reads inductionHypothesis =>
      refine .copied ?_ inductionHypothesis
      intro entry member word behind placeholder itself
      have itself' : (char :: rest) ++ separator :: tail = word ++ behind := itself
      rcases List.append_eq_append_iff.mp itself' with
        ⟨further, longer, begins⟩ | ⟨further, shorter, _⟩
      · cases further with
        | nil =>
            rw [List.append_nil] at longer
            exact none entry member word [] placeholder
              (by rw [longer, List.append_nil])
        | cons first others =>
            have same := (List.cons.inj begins).1
            refine absent entry member word placeholder ?_
            rw [longer, same]
            simp
      · exact none entry member word further placeholder shorter
  | @replaced entry word rest pieces member placeholder reads
      inductionHypothesis =>
      rw [List.append_assoc]
      exact .replaced member placeholder inductionHypothesis

end Reads

end Amq.StringUtil
