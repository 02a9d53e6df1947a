import Mathlib.Data.List.Basic

/-!
# Substituting variables in a string

`StringUtil.substitute` replaces every `{ key }` by a value.  The value is a
replacement pattern of `String.prototype.replace`, in which `$` can be special;
the regular expression has no groups.
-/

namespace Amq.StringUtil

/-- The characters that `\s` matches. -/
def isWhiteSpace (char : Char) : Bool :=
  let code := char.toNat
  (0x9 ≤ code && code ≤ 0xD) || code == 0x20 || code == 0xA0 ||
    code == 0x1680 || (0x2000 ≤ code && code ≤ 0x200A) || code == 0x2028 ||
    code == 0x2029 || code == 0x202F || code == 0x205F || code == 0x3000 ||
    code == 0xFEFF

/-- What follows a match of `{\s*key\s*}` at the start of the string. -/
def matchVariable (key : List Char) : List Char → Option (List Char)
  | '\x7b' :: rest =>
      let named := rest.dropWhile isWhiteSpace
      if key.isPrefixOf named then
        match (named.drop key.length).dropWhile isWhiteSpace with
        | '\x7d' :: after => some after
        | _ => none
      else
        none
  | _ => none

/-- The replacement for a match between these two parts of the string. -/
def getSubstitution
    (before matched after : List Char) : List Char → List Char
  | '$' :: '$' :: rest =>
      '$' :: getSubstitution before matched after rest
  | '$' :: '&' :: rest =>
      matched ++ getSubstitution before matched after rest
  | '$' :: '\x60' :: rest =>
      before ++ getSubstitution before matched after rest
  | '$' :: '\'' :: rest =>
      after ++ getSubstitution before matched after rest
  | char :: rest => char :: getSubstitution before matched after rest
  | [] => []

/-- `string.replace(regex, value)` from a position of the string on.  So many
characters of the rest belong to a match that has been replaced. -/
def replaceFrom
    (key value before : List Char) : ℕ → List Char → List Char
  | _, [] => []
  | matched + 1, char :: rest =>
      replaceFrom key value (before ++ [char]) matched rest
  | 0, char :: rest =>
      match matchVariable key (char :: rest) with
      | some after =>
          let length := rest.length - after.length
          getSubstitution before ((char :: rest).take (length + 1)) after value ++
            replaceFrom key value (before ++ [char]) length rest
      | none => char :: replaceFrom key value (before ++ [char]) 0 rest

def replaceAll (key value string : List Char) : List Char :=
  replaceFrom key value [] 0 string

/-- The entries are the names and values of the variables, in their order. -/
def substitute (string : String) (entries : List (String × String)) : String :=
  .ofList <|
    entries.foldl
      (fun result entry => replaceAll entry.1.toList entry.2.toList result)
      string.toList

/-! ## Substituting a number

A number has no `$`, so that it stands in the result wherever the variable stood
in the string. -/

/-- The places of a variable in a string, each one left open. -/
def openPlaces (key : List Char) : ℕ → List Char → List (Option Char)
  | _, [] => []
  | matched + 1, _ :: rest => openPlaces key matched rest
  | 0, char :: rest =>
      match matchVariable key (char :: rest) with
      | some after => none :: openPlaces key (rest.length - after.length) rest
      | none => some char :: openPlaces key 0 rest

theorem openPlaces_of_unmatched
    {key : List Char} {char : Char} {rest : List Char}
    (unmatched : matchVariable key (char :: rest) = none) :
    openPlaces key 0 (char :: rest) = some char :: openPlaces key 0 rest := by
  simp only [openPlaces, unmatched]

theorem openPlaces_of_matched
    {key : List Char} {char : Char} {rest after : List Char}
    (matched : matchVariable key (char :: rest) = some after) :
    openPlaces key 0 (char :: rest) =
      none :: openPlaces key (rest.length - after.length) rest := by
  simp only [openPlaces, matched]

/-- The value is written to each open place. -/
def fill (value : List Char) (places : List (Option Char)) : List Char :=
  places.flatMap fun place => place.elim value fun char => [char]

theorem getSubstitution_eq_self
    (before matched after : List Char) {value : List Char}
    (plain : '$' ∉ value) :
    getSubstitution before matched after value = value := by
  induction value with
  | nil => rfl
  | cons char rest inductionHypothesis =>
      have different : char ≠ '$' := fun same => plain (same ▸ List.mem_cons_self)
      have later : '$' ∉ rest := fun member =>
        plain (List.mem_cons_of_mem char member)
      unfold getSubstitution
      split
      · rename_i same
        exact absurd (List.cons.inj same).1 different
      · rename_i same
        exact absurd (List.cons.inj same).1 different
      · rename_i same
        exact absurd (List.cons.inj same).1 different
      · rename_i same
        exact absurd (List.cons.inj same).1 different
      · rename_i same
        cases same
        rw [inductionHypothesis later]
      · rename_i same
        cases same

theorem replaceFrom_eq_fill
    (key : List Char) {value : List Char} (plain : '$' ∉ value)
    (before : List Char) (matched : ℕ) (string : List Char) :
    replaceFrom key value before matched string =
      fill value (openPlaces key matched string) := by
  induction string generalizing before matched with
  | nil => cases matched <;> rfl
  | cons char rest inductionHypothesis =>
      cases matched with
      | succ matched => exact inductionHypothesis (before ++ [char]) matched
      | zero =>
          simp only [replaceFrom, openPlaces]
          cases matchVariable key (char :: rest) with
          | none =>
              simp only [inductionHypothesis]
              rfl
          | some after =>
              simp only [inductionHypothesis, getSubstitution_eq_self _ _ _ plain]
              rfl

theorem length_fill (value : List Char) (places : List (Option Char)) :
    (fill value places).length =
      places.countP Option.isSome + value.length * places.countP Option.isNone := by
  induction places with
  | nil => rfl
  | cons place rest inductionHypothesis =>
      unfold fill at inductionHypothesis ⊢
      rw [List.flatMap_cons, List.length_append, inductionHypothesis]
      cases place with
      | none =>
          simp only [Option.elim_none, List.countP_cons, Option.isSome_none,
            Option.isNone_none, Bool.false_eq_true, if_false, if_true,
            Nat.mul_add, Nat.mul_one, Nat.add_zero]
          omega
      | some char =>
          simp only [Option.elim_some, List.countP_cons, Option.isSome_some,
            Option.isNone_some, Bool.false_eq_true, if_false, if_true,
            List.length_singleton, Nat.add_zero]
          omega

/-- The value can be read off the result. -/
theorem fill_injective
    {left right : List Char} {places : List (Option Char)}
    (isOpen : none ∈ places) (same : fill left places = fill right places) :
    left = right := by
  have places_pos : 0 < places.countP Option.isNone :=
    List.countP_pos_iff.mpr ⟨none, isOpen, rfl⟩
  have lengths : left.length = right.length := by
    have total := congrArg List.length same
    rw [length_fill, length_fill, Nat.add_left_cancel_iff] at total
    exact Nat.eq_of_mul_eq_mul_right places_pos total
  clear places_pos
  induction places with
  | nil => cases isOpen
  | cons place rest inductionHypothesis =>
      unfold fill at same inductionHypothesis
      rw [List.flatMap_cons, List.flatMap_cons] at same
      cases place with
      | none => exact (List.append_inj same lengths).1
      | some char =>
          have later := (List.append_inj same rfl).2
          rcases List.mem_cons.mp isOpen with first | member
          · cases first
          · exact inductionHypothesis member later

theorem dropWhile_separated (string tail : List Char) :
    (string ++ ':' :: tail).dropWhile isWhiteSpace =
      string.dropWhile isWhiteSpace ++ ':' :: tail := by
  induction string with
  | nil => rfl
  | cons char rest inductionHypothesis =>
      rw [List.cons_append, List.dropWhile_cons, List.dropWhile_cons]
      split
      · exact inductionHypothesis
      · rfl

/-- A match does not reach beyond a colon. -/
theorem matchVariable_separated
    {key : List Char} (absent : ':' ∉ key) {char : Char}
    {string tail after : List Char}
    (matched : matchVariable key (char :: string ++ ':' :: tail) = some after) :
    ∃ rest, after = rest ++ ':' :: tail := by
  simp only [List.cons_append] at matched
  unfold matchVariable at matched
  split at matched
  · rename_i rest same
    cases same
    dsimp only at matched
    rw [dropWhile_separated] at matched
    split at matched
    · rename_i isPrefix
      obtain ⟨beyond, named⟩ := List.isPrefixOf_iff_prefix.mp isPrefix
      have inside :
          ∃ short, string.dropWhile isWhiteSpace = key ++ short := by
        rcases List.append_eq_append_iff.mp named with
          ⟨short, itself, _⟩ | ⟨crossing, itself, separator⟩
        · exact ⟨short, itself⟩
        · cases crossing with
          | nil => exact ⟨[], by rw [itself]; simp⟩
          | cons first later =>
              have colon := (List.cons.inj separator).1
              rw [itself, ← colon] at absent
              exact absurd (by simp) absent
      obtain ⟨short, itself⟩ := inside
      rw [itself, List.append_assoc, List.drop_left, dropWhile_separated]
        at matched
      cases closing : short.dropWhile isWhiteSpace with
      | nil =>
          rw [closing] at matched
          cases matched
      | cons first later =>
          rw [closing, List.cons_append] at matched
          split at matched
          · rename_i same
            cases same
            exact ⟨later, (Option.some.inj matched).symm⟩
          · cases matched
    · cases matched
  · cases matched

/-- The places after a colon do not depend on the string before it. -/
theorem openPlaces_separated
    {key : List Char} (absent : ':' ∉ key) (string tail : List Char)
    (matched : ℕ) (within : matched ≤ string.length) :
    ∃ places,
      openPlaces key matched (string ++ ':' :: tail) =
        places ++ some ':' :: openPlaces key 0 tail := by
  induction string generalizing matched with
  | nil =>
      have none_matched : matched = 0 := Nat.le_zero.mp within
      subst none_matched
      exact ⟨[], rfl⟩
  | cons char rest inductionHypothesis =>
      cases matched with
      | succ matched =>
          exact inductionHypothesis matched (Nat.le_of_succ_le_succ within)
      | zero =>
          rw [List.cons_append]
          cases found : matchVariable key (char :: (rest ++ ':' :: tail)) with
          | none =>
              obtain ⟨places, itself⟩ :=
                inductionHypothesis 0 (Nat.zero_le rest.length)
              refine ⟨some char :: places, ?_⟩
              rw [openPlaces_of_unmatched found, itself, List.cons_append]
          | some after =>
              obtain ⟨short, itself⟩ := matchVariable_separated absent found
              have bounded :
                  (rest ++ ':' :: tail).length - after.length ≤ rest.length := by
                rw [itself]
                simp only [List.length_append, List.length_cons]
                omega
              obtain ⟨places, itself⟩ := inductionHypothesis _ bounded
              refine ⟨none :: places, ?_⟩
              rw [openPlaces_of_matched found, itself, List.cons_append]

theorem not_mem_toString
    {char : Char} (noDigit : char.isDigit = false) (number : ℕ) :
    char ∉ (toString number).toList := by
  rw [Nat.toString_eq_repr, Nat.toList_repr]
  intro member
  have isDigit := Nat.isDigit_of_mem_toDigits (by decide) (by decide) member
  rw [noDigit] at isDigit
  cases isDigit

theorem dollar_not_mem_toString (number : ℕ) :
    '$' ∉ (toString number).toList :=
  not_mem_toString (by decide) number

theorem toString_nat_injective
    {left right : ℕ} (same : (toString left).toList = (toString right).toList) :
    left = right := by
  rw [Nat.toString_eq_repr, Nat.toString_eq_repr, Nat.toList_repr,
    Nat.toList_repr] at same
  have read := congrArg (fun digits => Nat.ofDigitChars 10 digits 0) same
  simpa using read

end Amq.StringUtil
