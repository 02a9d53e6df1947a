import Amq.Placeholders
import Mathlib.Data.List.Nodup
import Mathlib.Data.List.Perm.Basic

/-!
# Substituting several variables

`StringUtil.substitute` replaces one variable after the other in a string that
already has values in it, and passes each value as a replacement pattern.  The
reference below reads the template once and copies the values.
-/

namespace Amq.StringUtil

/-- The template is read once for all variables. -/
def substituteOnce (entries : List (String × String)) (template : String) :
    String :=
  .ofList ((scan entries 0 template.toList).flatMap Piece.result)

/-- Identifiers as names, each one once. -/
structure AreVariables (entries : List (String × String)) : Prop where
  identifiers : ∀ entry ∈ entries, IsIdentifier entry.1.toList
  distinct : (entries.map Prod.fst).Nodup

/-- After these characters a dollar sign of a replacement pattern is special. -/
def specials : List Char :=
  ['$', '&', '\x60', '\'']

def HasSpecial (value : List Char) : Prop :=
  ∃ left char right, char ∈ specials ∧ value = left ++ '$' :: char :: right

/-- Other text around the value makes such a word of it: one that goes all across
the value, one that ends in the value or one that begins in it. -/
inductive Spills (value : List Char) : List Char → Prop
  | across {left right : List Char} (before : left ≠ []) (after : right ≠ []) :
      Spills value (left ++ (value ++ right))
  | ending {left first rest : List Char} (before : left ≠ [])
      (nonempty : first ≠ []) (split : value = first ++ rest) :
      Spills value (left ++ first)
  | beginning {first rest right : List Char} (nonempty : rest ≠ [])
      (after : right ≠ []) (split : value = first ++ rest) :
      Spills value (rest ++ right)

/-- No value has a special dollar sign, and no value helps to make a placeholder of
another variable.  It may contain such a placeholder if this is the very value of
the other variable. -/
structure AreHarmless (entries : List (String × String)) : Prop where
  verbatim : ∀ entry ∈ entries, ¬ HasSpecial entry.2.toList
  apart :
    ∀ inserted ∈ entries, ∀ other ∈ entries, inserted ≠ other →
      ∀ word, IsPlaceholder other.1.toList word → ¬ Spills inserted.2.toList word
  inside :
    ∀ inserted ∈ entries, ∀ other ∈ entries, inserted ≠ other →
      ∀ word, IsPlaceholder other.1.toList word → word <:+: inserted.2.toList →
        word = other.2.toList

/-- Values without dollar signs and braces are harmless if each of them has a
character that placeholders of other variables do not have. -/
theorem areHarmless_of_foreign
    {entries : List (String × String)}
    (noDollar : ∀ entry ∈ entries, '$' ∉ entry.2.toList)
    (noOpening : ∀ entry ∈ entries, '\x7b' ∉ entry.2.toList)
    (noClosing : ∀ entry ∈ entries, '\x7d' ∉ entry.2.toList)
    (identifiers : ∀ entry ∈ entries, IsIdentifier entry.1.toList)
    (foreign :
      ∀ inserted ∈ entries, ∀ other ∈ entries, inserted ≠ other →
        (inserted.2.toList.any fun char =>
          !isWhiteSpace char && !other.1.toList.contains char) = true) :
    AreHarmless entries := by
  have outside (inserted : String × String) (member : inserted ∈ entries)
      (other : String × String) (isOther : other ∈ entries)
      (different : inserted ≠ other) (word : List Char)
      (placeholder : IsPlaceholder other.1.toList word) :
      ¬ inserted.2.toList <:+: word := by
    intro within
    obtain ⟨char, itsChar, outer⟩ :=
      List.any_eq_true.mp (foreign inserted member other isOther different)
    have apart := Bool.and_eq_true_iff.mp outer
    have visible : isWhiteSpace char = false := by
      simpa using apart.1
    have absent : char ∉ other.1.toList := by
      simpa using apart.2
    refine placeholder.not_mem absent visible ?_ ?_ (within.subset itsChar)
    · intro same
      exact noOpening inserted member (same ▸ itsChar)
    · intro same
      exact noClosing inserted member (same ▸ itsChar)
  constructor
  · intro entry member special
    obtain ⟨left, sign, right, _, itself⟩ := special
    refine noDollar entry member ?_
    rw [itself]
    simp
  · intro inserted member other isOther different word placeholder spills
    obtain ⟨inside, shape, _, _⟩ :=
      placeholder.shape (identifiers other isOther).isPlain
    cases spills with
    | @across left right before after =>
        refine outside inserted member other isOther different _ placeholder ?_
        exact ⟨left, right, List.append_assoc _ _ _⟩
    | @ending left first rest before nonempty split =>
        refine noClosing inserted member ?_
        have last : (left ++ first).getLast? = some '\x7d' := by
          rw [shape, ← List.cons_append, List.getLast?_concat]
        rw [List.getLast?_append_of_ne_nil _ nonempty] at last
        rw [split]
        exact List.mem_append_left rest (List.mem_of_getLast? last)
    | @beginning first rest right nonempty after split =>
        refine noOpening inserted member ?_
        have head : (rest ++ right).head? = some '\x7b' := by
          rw [shape]
          rfl
        rw [List.head?_append_of_ne_nil _ nonempty] at head
        rw [split]
        exact List.mem_append_right first (List.mem_of_mem_head? head)
  · intro inserted member other isOther different word placeholder within
    obtain ⟨others, opens⟩ := placeholder.exists_cons
    refine absurd (within.subset ?_) (noOpening inserted member)
    rw [opens]
    exact List.mem_cons_self

/-! ## Replacement patterns -/

section Pattern

variable {value : List Char} (before matched after : List Char)

theorem HasSpecial.cons
    {rest : List Char} (special : HasSpecial rest) (char : Char) :
    HasSpecial (char :: rest) := by
  obtain ⟨left, sign, right, member, itself⟩ := special
  exact ⟨char :: left, sign, right, member, by rw [itself]; rfl⟩

theorem hasSpecial_cons
    {sign : Char} (member : sign ∈ specials) (rest : List Char) :
    HasSpecial ('$' :: sign :: rest) :=
  ⟨[], sign, rest, member, rfl⟩

/-- A value without special dollar signs is inserted as it is. -/
theorem getSubstitution_of_verbatim (verbatim : ¬ HasSpecial value) :
    getSubstitution before matched after value = value := by
  fun_induction getSubstitution before matched after value with
  | case1 rest inductionHypothesis =>
      exact absurd (hasSpecial_cons (by decide) rest) verbatim
  | case2 rest inductionHypothesis =>
      exact absurd (hasSpecial_cons (by decide) rest) verbatim
  | case3 rest inductionHypothesis =>
      exact absurd (hasSpecial_cons (by decide) rest) verbatim
  | case4 rest inductionHypothesis =>
      exact absurd (hasSpecial_cons (by decide) rest) verbatim
  | case5 char rest _ _ _ _ inductionHypothesis =>
      rw [inductionHypothesis fun special => verbatim (special.cons char)]
  | case6 => rfl

/-- The first character is not a special dollar sign. -/
theorem HasSpecial.of_cons
    {char : Char} {rest : List Char} (special : HasSpecial (char :: rest))
    (noDollar : ∀ right, char = '$' → rest = '$' :: right → False)
    (noMatched : ∀ right, char = '$' → rest = '&' :: right → False)
    (noBefore : ∀ right, char = '$' → rest = '\x60' :: right → False)
    (noAfter : ∀ right, char = '$' → rest = '\'' :: right → False) :
    HasSpecial rest := by
  obtain ⟨left, sign, right, member, itself⟩ := special
  cases left with
  | nil =>
      obtain ⟨dollar, later⟩ := List.cons.inj itself
      simp only [specials, List.mem_cons, List.not_mem_nil, or_false] at member
      rcases member with same | same | same | same
      · exact absurd (by rw [later, same]) (noDollar right dollar)
      · exact absurd (by rw [later, same]) (noMatched right dollar)
      · exact absurd (by rw [later, same]) (noBefore right dollar)
      · exact absurd (by rw [later, same]) (noAfter right dollar)
  | cons first others =>
      exact ⟨others, sign, right, member, (List.cons.inj itself).2⟩

/-- What is inserted is as long as one of the parts of the string, or no longer than
the value; with a special dollar sign it is shorter then. -/
theorem length_getSubstitution
    {bound : ℕ} (isBefore : bound ≤ before.length)
    (isMatched : bound ≤ matched.length) (isAfter : bound ≤ after.length) :
    bound ≤ (getSubstitution before matched after value).length ∨
      (getSubstitution before matched after value).length ≤ value.length ∧
        (HasSpecial value →
          (getSubstitution before matched after value).length < value.length) := by
  fun_induction getSubstitution before matched after value with
  | case1 rest inductionHypothesis =>
      simp only [List.length_cons]
      omega
  | case2 rest inductionHypothesis =>
      rw [List.length_append]
      omega
  | case3 rest inductionHypothesis =>
      rw [List.length_append]
      omega
  | case4 rest inductionHypothesis =>
      rw [List.length_append]
      omega
  | case5 char rest noDollar noMatched noBefore noAfter inductionHypothesis =>
      simp only [List.length_cons]
      rcases inductionHypothesis with long | ⟨short, shorter⟩
      · omega
      · refine Or.inr ⟨by omega, ?_⟩
        intro special
        have less :=
          shorter (special.of_cons noDollar noMatched noBefore noAfter)
        omega
  | case6 =>
      refine Or.inr ⟨Nat.le_refl 0, ?_⟩
      rintro ⟨left, sign, right, _, itself⟩
      simp at itself

/-- Among long parts of a string a special dollar sign is noticed. -/
theorem getSubstitution_ne
    (special : HasSpecial value) (isBefore : value.length < before.length)
    (isMatched : value.length < matched.length)
    (isAfter : value.length < after.length) :
    getSubstitution before matched after value ≠ value := by
  intro same
  have measured :
      value.length + 1 ≤ (getSubstitution before matched after value).length ∨ _ :=
    length_getSubstitution before matched after isBefore isMatched isAfter
  rcases measured with long | ⟨_, shorter⟩
  · rw [same] at long
    omega
  · have less := shorter special
    rw [same] at less
    omega

end Pattern

/-! ## One variable -/

section Replace

variable {entry : String × String} {string : List Char} {pieces : List Piece}

theorem replaceFrom_matched
    (key value before word rest : List Char) :
    replaceFrom key value before word.length (word ++ rest) =
      replaceFrom key value (before ++ word) 0 rest := by
  induction word generalizing before with
  | nil => rw [List.append_nil]; rfl
  | cons char others inductionHypothesis =>
      rw [List.append_cons]
      exact inductionHypothesis (before ++ [char])

theorem replaceFrom_placeholder
    {key word : List Char} (plain : IsPlain key)
    (placeholder : IsPlaceholder key word) (value before rest : List Char) :
    replaceFrom key value before 0 (word ++ rest) =
      getSubstitution before word rest value ++
        replaceFrom key value (before ++ word) 0 rest := by
  have matched := matchVariable_placeholder plain placeholder rest
  obtain ⟨others, shape⟩ := placeholder.exists_cons
  subst shape
  rw [List.cons_append] at matched ⊢
  have taken : (others ++ rest).length - rest.length = others.length := by
    rw [List.length_append]
    omega
  have whole :
      ('\x7b' :: (others ++ rest)).take (others.length + 1) =
        '\x7b' :: others := by
    rw [← List.cons_append]
    exact List.take_left' rfl
  conv_lhs => unfold replaceFrom
  rw [matched]
  dsimp only
  rw [taken, whole, replaceFrom_matched, List.append_assoc]
  rfl

theorem replaceFrom_copied
    {char : Char} {rest : List Char}
    (none : NoneStarts [entry] (char :: rest)) (value before : List Char) :
    replaceFrom entry.1.toList value before 0 (char :: rest) =
      char :: replaceFrom entry.1.toList value (before ++ [char]) 0 rest := by
  cases found : matchVariable entry.1.toList (char :: rest) with
  | some after =>
      obtain ⟨word, placeholder, itself⟩ := placeholder_of_matchVariable found
      exact absurd itself
        (none entry List.mem_cons_self word after placeholder)
  | none =>
      rw [replaceFrom]
      rw [found]

/-- Replacing one variable is reading the string for it alone. -/
theorem replaceFrom_eq_of_reads
    (plain : IsPlain entry.1.toList) (verbatim : ¬ HasSpecial entry.2.toList)
    (reads : Reads [entry] string pieces) (before : List Char) :
    replaceFrom entry.1.toList entry.2.toList before 0 string =
      pieces.flatMap Piece.result := by
  induction reads generalizing before with
  | nil => rfl
  | copied none reads inductionHypothesis =>
      rw [replaceFrom_copied none, inductionHypothesis]
      rfl
  | replaced member placeholder reads inductionHypothesis =>
      cases List.mem_singleton.mp member
      rw [replaceFrom_placeholder plain placeholder, inductionHypothesis,
        getSubstitution_of_verbatim _ _ _ verbatim]
      rfl

end Replace

/-! ## Several variables -/

/-- The text of a piece when the values of some variables have been inserted. -/
def Piece.render (done : List (String × String)) : Piece → List Char
  | .copied char => [char]
  | .replaced entry word => if entry ∈ done then entry.2.toList else word

section Several

variable {entries done : List (String × String)} {other : String × String}

/-- A placeholder that has begun before goes on in the string itself: it cannot go
into a value, and no other placeholder begins in it. -/
theorem Reads.exists_of_render
    {string left right after : List Char} {pieces : List Piece}
    (reads : Reads entries string pieces) (plain : IsPlain other.1.toList)
    (begins : left ≠ [])
    (placeholder : IsPlaceholder other.1.toList (left ++ right))
    (apart : ∀ inserted ∈ done, ¬ Spills inserted.2.toList (left ++ right))
    (rendered : pieces.flatMap (Piece.render done) = right ++ after) :
    ∃ behind, string = right ++ behind := by
  induction reads generalizing left right with
  | nil =>
      have empty := (List.append_eq_nil_iff.mp rendered.symm).1
      exact ⟨[], by rw [empty]; rfl⟩
  | @copied char rest pieces none reads inductionHypothesis =>
      cases right with
      | nil => exact ⟨_, rfl⟩
      | cons first later =>
          rw [List.append_cons] at placeholder apart
          obtain ⟨same, remaining⟩ := List.cons.inj rendered
          obtain ⟨behind, itself⟩ :=
            inductionHypothesis (by simp) placeholder apart remaining
          exact ⟨behind, by rw [same, itself]; rfl⟩
  | @replaced entry word rest pieces isEntry inner reads inductionHypothesis =>
      cases right with
      | nil => exact ⟨_, rfl⟩
      | cons first later =>
          rw [List.flatMap_cons] at rendered
          by_cases inserted : entry ∈ done
          · have value : Piece.render done (.replaced entry word) =
                entry.2.toList := if_pos inserted
            rw [value] at rendered
            have notSpilled := apart entry inserted
            rcases List.append_eq_append_iff.mp rendered with
              ⟨beyond, longer, _⟩ | ⟨remaining, shorter, _⟩
            · rw [longer] at notSpilled
              cases beyond with
              | nil =>
                  rw [List.append_nil] at longer notSpilled
                  have itself : entry.2.toList = entry.2.toList ++ [] :=
                    (List.append_nil _).symm
                  have nonempty : entry.2.toList ≠ [] := by
                    rw [← longer]
                    exact List.cons_ne_nil first later
                  exact absurd (.ending begins nonempty itself) notSpilled
              | cons _ _ =>
                  exact absurd (.across begins (List.cons_ne_nil _ _)) notSpilled
            · exact absurd
                (.ending begins (List.cons_ne_nil first later) shorter) notSpilled
          · have text : Piece.render done (.replaced entry word) = word :=
              if_neg inserted
            obtain ⟨others, shape⟩ := inner.exists_cons
            rw [text, shape] at rendered
            have opens := (List.cons.inj rendered).1
            have notOpening := placeholder.tail_ne plain begins rfl later
            exact absurd (by rw [opens]) notOpening

/-- Text without an opening brace has no placeholders. -/
theorem Reads.append_copied
    {string text : List Char} {pieces : List Piece}
    (reads : Reads entries string pieces) (noOpening : '\x7b' ∉ text) :
    Reads entries (text ++ string) (text.map Piece.copied ++ pieces) := by
  induction text with
  | nil => exact reads
  | cons char others inductionHypothesis =>
      refine .copied ?_ (inductionHypothesis fun member =>
        noOpening (List.mem_cons_of_mem char member))
      intro entry _ word after placeholder itself
      obtain ⟨inside, shape⟩ := placeholder.exists_cons
      rw [shape] at itself
      have same := (List.cons.inj itself).1
      exact noOpening (same ▸ List.mem_cons_self)

theorem flatMap_copied (text : List Char) (result : Piece → List Char)
    (copies : ∀ char, result (.copied char) = [char]) :
    (text.map Piece.copied).flatMap result = text := by
  induction text with
  | nil => rfl
  | cons char others inductionHypothesis =>
      rw [List.map_cons, List.flatMap_cons, copies, inductionHypothesis]
      rfl

/-- A value that is harmless to another variable stays as it is. -/
theorem Reads.append_value
    {string value first rest : List Char} {pieces : List Piece}
    (reads : Reads [other] string pieces)
    (apart : ∀ word, IsPlaceholder other.1.toList word → ¬ Spills value word)
    (inside :
      ∀ word, IsPlaceholder other.1.toList word → word <:+: value →
        word = other.2.toList)
    (split : value = first ++ rest) :
    ∃ pieces', Reads [other] (rest ++ string) pieces' ∧
      pieces'.flatMap Piece.result = rest ++ pieces.flatMap Piece.result := by
  induction length : rest.length using Nat.strongRecOn generalizing first rest with
  | ind bound inductionHypothesis =>
      cases rest with
      | nil => exact ⟨pieces, reads, rfl⟩
      | cons char others =>
          by_cases none : NoneStarts [other] (char :: (others ++ string))
          · have splitAgain : value = (first ++ [char]) ++ others := by
              rw [split, List.append_cons]
            obtain ⟨pieces', reads', result⟩ :=
              inductionHypothesis others.length
                (by rw [← length]; exact Nat.lt_succ_self _) splitAgain rfl
            refine ⟨.copied char :: pieces', .copied none reads', ?_⟩
            rw [List.flatMap_cons, result]
            rfl
          · obtain ⟨found, member, word, after, placeholder, itself⟩ :=
              exists_placeholder_of_starts none
            rw [List.mem_singleton.mp member] at placeholder
            rw [← List.cons_append] at itself
            have whole (remaining : List Char)
                (contained : char :: others = word ++ remaining) :
                ∃ pieces', Reads [other] (char :: others ++ string) pieces' ∧
                  pieces'.flatMap Piece.result =
                    char :: others ++ pieces.flatMap Piece.result := by
              have splitAgain : value = (first ++ word) ++ remaining := by
                rw [split, contained, List.append_assoc]
              have isValue : word = other.2.toList :=
                inside word placeholder ⟨first, remaining, splitAgain.symm⟩
              have shorter : remaining.length < bound := by
                obtain ⟨inner, shape⟩ := placeholder.exists_cons
                have lengths := congrArg List.length contained
                rw [shape, List.length_append] at lengths
                simp only [List.length_cons] at lengths length
                omega
              obtain ⟨pieces', reads', result⟩ :=
                inductionHypothesis remaining.length shorter splitAgain rfl
              refine ⟨.replaced other word :: pieces', ?_, ?_⟩
              · rw [contained, List.append_assoc]
                exact .replaced List.mem_cons_self placeholder reads'
              · rw [List.flatMap_cons, result, contained, List.append_assoc,
                  isValue]
                rfl
            rcases List.append_eq_append_iff.mp itself with
              ⟨beyond, longer, _⟩ | ⟨remaining, contained, _⟩
            · cases beyond with
              | nil => exact whole [] (by rw [longer]; simp)
              | cons _ _ =>
                  rw [longer] at placeholder
                  exact absurd
                    (.beginning (List.cons_ne_nil _ _) (List.cons_ne_nil _ _)
                      split)
                    (apart _ placeholder)
            · exact whole remaining contained

theorem AreVariables.isPlain
    (named : AreVariables entries) {entry : String × String}
    (member : entry ∈ entries) : IsPlain entry.1.toList :=
  (named.identifiers entry member).isPlain

/-- A placeholder belongs to one variable. -/
theorem AreVariables.eq_of_placeholder
    (named : AreVariables entries) {entry : String × String}
    (member : entry ∈ entries) (isOther : other ∈ entries) {word : List Char}
    (placeholder : IsPlaceholder entry.1.toList word)
    (placeholder' : IsPlaceholder other.1.toList word) : entry = other := by
  have keys :=
    placeholder.key_eq (named.isPlain member) placeholder'
      (named.isPlain isOther)
  have names : entry.1 = other.1 := String.toList_injective keys
  exact List.inj_on_of_nodup_map named.distinct member isOther names

/-- The placeholder of another variable stays as it is. -/
theorem AreVariables.reads_of_placeholder
    (named : AreVariables entries) {entry : String × String}
    (isEntry : entry ∈ entries) (isOther : other ∈ entries)
    (different : entry ≠ other) {word string : List Char}
    {pieces : List Piece} (placeholder : IsPlaceholder entry.1.toList word)
    (reads : Reads [other] string pieces) :
    Reads [other] (word ++ string) (word.map Piece.copied ++ pieces) := by
  obtain ⟨inside, shape, noOpening, _⟩ :=
    placeholder.shape (named.isPlain isEntry)
  have rest : Reads [other] (inside ++ ['\x7d'] ++ string)
      ((inside ++ ['\x7d']).map Piece.copied ++ pieces) := by
    apply reads.append_copied
    simp [noOpening]
  have none : NoneStarts [other] (word ++ string) := by
    intro found member word' after placeholder' itself
    cases List.mem_singleton.mp member
    obtain ⟨same, _⟩ :=
      placeholder.eq_of_append (named.isPlain isEntry) placeholder'
        (named.isPlain isOther) itself
    rw [← same] at placeholder'
    exact different (named.eq_of_placeholder isEntry isOther placeholder placeholder')
  rw [shape] at none ⊢
  exact .copied none rest

/-- Replacing one more variable inserts its value into the template. -/
theorem AreHarmless.exists_reads
    (harmless : AreHarmless entries) (named : AreVariables entries)
    (within : ∀ entry ∈ done, entry ∈ entries) (isOther : other ∈ entries)
    (isNew : other ∉ done) {template : List Char} {pieces : List Piece}
    (reads : Reads entries template pieces) :
    ∃ pieces',
      Reads [other] (pieces.flatMap (Piece.render done)) pieces' ∧
        pieces'.flatMap Piece.result =
          pieces.flatMap (Piece.render (done ++ [other])) := by
  have plain := named.isPlain isOther
  induction reads with
  | nil => exact ⟨[], .nil, rfl⟩
  | @copied char rest pieces none reads inductionHypothesis =>
      obtain ⟨pieces', reads', result⟩ := inductionHypothesis
      refine ⟨.copied char :: pieces', .copied ?_ reads', ?_⟩
      · intro entry member word after placeholder itself
        cases List.mem_singleton.mp member
        obtain ⟨others, shape⟩ := placeholder.exists_cons
        rw [shape] at itself
        obtain ⟨opens, rendered⟩ := List.cons.inj itself
        have begun : IsPlaceholder other.1.toList (['\x7b'] ++ others) := by
          rw [shape] at placeholder
          exact placeholder
        obtain ⟨behind, original⟩ :=
          reads.exists_of_render plain (List.cons_ne_nil _ _) begun
            (fun found isDone =>
              harmless.apart found (within found isDone) other isOther
                (fun equal => isNew (equal ▸ isDone)) _ begun)
            rendered
        refine none other isOther word behind placeholder ?_
        rw [shape, opens, original]
        rfl
      · rw [List.flatMap_cons, List.flatMap_cons, result]
        rfl
  | @replaced entry word rest pieces isEntry placeholder reads
      inductionHypothesis =>
      obtain ⟨pieces', reads', result⟩ := inductionHypothesis
      rw [List.flatMap_cons, List.flatMap_cons, ← result]
      by_cases same : entry = other
      · subst same
        have text : Piece.render done (.replaced entry word) = word :=
          if_neg isNew
        have value :
            Piece.render (done ++ [entry]) (.replaced entry word) =
              entry.2.toList := if_pos (by simp)
        rw [text, value]
        exact ⟨_, .replaced List.mem_cons_self placeholder reads', rfl⟩
      · by_cases inserted : entry ∈ done
        · have before :
              Piece.render done (.replaced entry word) = entry.2.toList :=
            if_pos inserted
          have after :
              Piece.render (done ++ [other]) (.replaced entry word) =
                entry.2.toList := if_pos (by simp [inserted])
          rw [before, after]
          exact reads'.append_value
            (harmless.apart entry isEntry other isOther same)
            (harmless.inside entry isEntry other isOther same)
            (List.nil_append _).symm
        · have before :
              Piece.render done (.replaced entry word) = word := if_neg inserted
          have after :
              Piece.render (done ++ [other]) (.replaced entry word) = word :=
            if_neg (by simp [inserted, same])
          rw [before, after]
          refine
            ⟨_, named.reads_of_placeholder isEntry isOther same placeholder reads', ?_⟩
          rw [List.flatMap_append, flatMap_copied _ _ fun _ => rfl]

/-! ## All variables -/

theorem Reads.render_nil
    {template : List Char} {pieces : List Piece}
    (reads : Reads entries template pieces) :
    pieces.flatMap (Piece.render []) = template := by
  have sources : Piece.render [] = Piece.source := by
    funext piece
    cases piece with
    | copied char => rfl
    | replaced entry word =>
        simp only [Piece.render, List.not_mem_nil, if_false]
        rfl
  rw [sources]
  exact reads.source_eq

theorem Reads.render_all
    {template : List Char} {pieces : List Piece}
    (reads : Reads entries template pieces)
    (complete : ∀ entry ∈ entries, entry ∈ done) :
    pieces.flatMap (Piece.render done) = pieces.flatMap Piece.result := by
  induction reads with
  | nil => rfl
  | copied none reads inductionHypothesis =>
      rw [List.flatMap_cons, List.flatMap_cons, inductionHypothesis]
      rfl
  | @replaced entry word rest pieces member placeholder reads
      inductionHypothesis =>
      have value :
          Piece.render done (.replaced entry word) = entry.2.toList :=
        if_pos (complete entry member)
      rw [List.flatMap_cons, List.flatMap_cons, inductionHypothesis, value]
      rfl

/-- Replacing one variable after the other inserts their values into the template. -/
theorem AreHarmless.foldl_eq
    (harmless : AreHarmless entries) (named : AreVariables entries)
    {template : List Char} {pieces : List Piece}
    (reads : Reads entries template pieces)
    (done remaining : List (String × String))
    (within : ∀ entry ∈ done ++ remaining, entry ∈ entries)
    (nodup : (done ++ remaining).Nodup) :
    remaining.foldl
        (fun result entry => replaceAll entry.1.toList entry.2.toList result)
        (pieces.flatMap (Piece.render done)) =
      pieces.flatMap (Piece.render (done ++ remaining)) := by
  induction remaining generalizing done with
  | nil => rw [List.append_nil]; rfl
  | cons other others inductionHypothesis =>
      have isOther : other ∈ entries := within other (by simp)
      have isNew : other ∉ done := by
        intro member
        exact (List.disjoint_of_nodup_append nodup) member List.mem_cons_self
      obtain ⟨pieces', reads', result⟩ :=
        harmless.exists_reads named
          (fun entry member => within entry (List.mem_append_left _ member))
          isOther isNew reads
      have replaced :
          replaceAll other.1.toList other.2.toList
              (pieces.flatMap (Piece.render done)) =
            pieces.flatMap (Piece.render (done ++ [other])) := by
        rw [← result]
        exact replaceFrom_eq_of_reads (named.isPlain isOther)
          (harmless.verbatim other isOther) reads' []
      rw [List.append_cons done other others] at within nodup ⊢
      rw [List.foldl_cons, replaced]
      exact inductionHypothesis (done ++ [other]) within nodup

/-- Values that are harmless are substituted at once, whatever their order is. -/
theorem AreHarmless.substitute_eq
    (harmless : AreHarmless entries) (named : AreVariables entries)
    {ordered : List (String × String)} (reordered : ordered.Perm entries)
    (template : String) :
    substitute template ordered = substituteOnce entries template := by
  have nodup : ordered.Nodup :=
    reordered.nodup_iff.mpr (List.Nodup.of_map Prod.fst named.distinct)
  have reads : Reads entries template.toList (scan entries 0 template.toList) :=
    reads_scan (fun _ => named.isPlain) template.toList
  have inserted :=
    harmless.foldl_eq named reads [] ordered
      (fun entry member => reordered.mem_iff.mp member) nodup
  rw [reads.render_nil, List.nil_append,
    reads.render_all fun entry member => reordered.mem_iff.mpr member]
    at inserted
  unfold substitute substituteOnce
  rw [inserted]

end Several

end Amq.StringUtil
