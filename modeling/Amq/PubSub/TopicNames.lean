import Amq.HarmlessValues
import Amq.PubSub.QueueNames

/-!
# Topics in queue names

The name of a default queue is the topic, a colon and the number unless the topic
has a special dollar sign or a placeholder of the number.  Counting tells: each
special dollar sign of the topic is lost, and so is the opening brace of each
placeholder.
-/

namespace Amq.PubSub

open Amq.StringUtil

def numberEntry (size : ℕ) : String × String :=
  ("consumerNumber", toString (size + 1))

/-- What the topic is replaced by in the default pattern. -/
def insertedTopic (topic : List Char) : List Char :=
  getSubstitution [] "{topic}".toList ":{consumerNumber}".toList topic

theorem isIdentifier_number : IsIdentifier "consumerNumber".toList :=
  isIdentifier_of_all (by decide) (by decide) (by decide)

theorem isPlain_number : IsPlain "consumerNumber".toList :=
  isIdentifier_number.isPlain

/-! ## Reading the name -/

theorem isPlaceholder_number :
    IsPlaceholder "consumerNumber".toList "{consumerNumber}".toList := by
  have bare : spaced 0 "consumerNumber".toList = "{consumerNumber}".toList := by
    decide
  rw [← bare]
  exact isPlaceholder_spaced 0 "consumerNumber".toList

theorem not_mem_number
    {char : Char} (absent : char ∉ "consumerNumber".toList)
    (visible : isWhiteSpace char = false) (noOpening : char ≠ '\x7b')
    (noClosing : char ≠ '\x7d') (size : ℕ) (word : List Char)
    (placeholder : IsPlaceholder (numberEntry size).1.toList word) :
    char ∉ word :=
  placeholder.not_mem absent visible noOpening noClosing

/-- The placeholder after the colon is read as well. -/
theorem reads_separated
    {size : ℕ} {string : List Char} {pieces : List Piece}
    (reads : Reads [numberEntry size] string pieces) :
    Reads [numberEntry size] (string ++ ':' :: "{consumerNumber}".toList)
      (pieces ++ [.copied ':', .replaced (numberEntry size) "{consumerNumber}".toList])
      := by
  have noColon : ∀ entry ∈ [numberEntry size], ∀ word,
      IsPlaceholder entry.1.toList word → ':' ∉ word := by
    intro entry member
    rw [List.mem_singleton.mp member]
    exact not_mem_number (by decide) (by decide) (by decide) (by decide) size
  have number : Reads [numberEntry size] ("{consumerNumber}".toList ++ [])
      [.replaced (numberEntry size) "{consumerNumber}".toList] :=
    .replaced List.mem_cons_self isPlaceholder_number .nil
  have colon : '\x7b' ∉ [':'] := by decide
  rw [List.append_nil] at number
  exact reads.append_separated noColon (number.append_copied colon)

theorem not_hasSpecial_number (size : ℕ) :
    ¬ HasSpecial (numberEntry size).2.toList := by
  rintro ⟨left, sign, right, _, itself⟩
  have dollar : '$' ∈ (numberEntry size).2.toList := by
    rw [itself]
    simp
  exact dollar_not_mem_toString (size + 1) dollar

/-- The number takes its place after the colon. -/
theorem numberedName_eq
    (topic : String) (size : ℕ) {pieces : List Piece}
    (reads : Reads [numberEntry size] (insertedTopic topic.toList) pieces) :
    numberedName topic size =
      .ofList
        (pieces.flatMap Piece.result ++ ':' :: (toString (size + 1)).toList) := by
  have replaced :
      replaceAll "consumerNumber".toList (toString (size + 1)).toList
          (insertedTopic topic.toList ++ ':' :: "{consumerNumber}".toList) = _ :=
    replaceFrom_eq_of_reads isPlain_number (not_hasSpecial_number size)
      (reads_separated reads) []
  unfold numberedName substitute
  rw [List.foldl_cons, List.foldl_cons, List.foldl_nil, replaceAll_topic]
  rw [List.flatMap_append, List.flatMap_cons, List.flatMap_singleton] at replaced
  exact congrArg String.ofList replaced

theorem numberedName_eq_iff
    (topic : String) (size : ℕ) {pieces : List Piece}
    (reads : Reads [numberEntry size] (insertedTopic topic.toList) pieces) :
    numberedName topic size = topic ++ ":" ++ toString (size + 1) ↔
      pieces.flatMap Piece.result = topic.toList := by
  rw [numberedName_eq topic size reads, ← String.toList_inj, String.toList_ofList,
    String.toList_append, String.toList_append, List.append_assoc]
  exact List.append_left_inj _

/-! ## Counting -/

/-- Each special dollar sign of the topic is lost. -/
theorem count_getSubstitution
    {before matched after : List Char} (noBefore : '$' ∉ before)
    (noMatched : '$' ∉ matched) (noAfter : '$' ∉ after) (value : List Char) :
    (getSubstitution before matched after value).count '$' ≤ value.count '$' ∧
      (HasSpecial value →
        (getSubstitution before matched after value).count '$' <
          value.count '$') := by
  fun_induction getSubstitution before matched after value with
  | case1 rest inductionHypothesis =>
      simp only [List.count_cons_self]
      omega
  | case2 rest inductionHypothesis =>
      rw [List.count_append, List.count_eq_zero_of_not_mem noMatched,
        List.count_cons_self, List.count_cons_of_ne (by decide)]
      omega
  | case3 rest inductionHypothesis =>
      rw [List.count_append, List.count_eq_zero_of_not_mem noBefore,
        List.count_cons_self, List.count_cons_of_ne (by decide)]
      omega
  | case4 rest inductionHypothesis =>
      rw [List.count_append, List.count_eq_zero_of_not_mem noAfter,
        List.count_cons_self, List.count_cons_of_ne (by decide)]
      omega
  | case5 char rest noDollar noMatch noFront noBack inductionHypothesis =>
      rw [List.count_cons, List.count_cons]
      refine ⟨by omega, ?_⟩
      intro special
      have later := special.of_cons noDollar noMatch noFront noBack
      have less := inductionHypothesis.2 later
      omega
  | case6 =>
      refine ⟨Nat.le_refl 0, ?_⟩
      rintro ⟨left, sign, right, _, itself⟩
      simp at itself

/-- If the topic is inserted as it is, it has no special dollar signs: neither the
placeholder nor the number has a dollar sign to take their place. -/
theorem not_hasSpecial_of_result_eq
    {topic : List Char} {size : ℕ} {pieces : List Piece}
    (reads : Reads [numberEntry size] (insertedTopic topic) pieces)
    (same : pieces.flatMap Piece.result = topic) : ¬ HasSpecial topic := by
  intro special
  have absent : ∀ word, IsPlaceholder (numberEntry size).1.toList word →
      '$' ∉ word :=
    not_mem_number (by decide) (by decide) (by decide) (by decide) size
  have counts := reads.count_eq fun word placeholder =>
    List.count_eq_zero_of_not_mem (absent word placeholder)
  have noDollar : (numberEntry size).2.toList.count '$' = 0 :=
    List.count_eq_zero_of_not_mem (dollar_not_mem_toString (size + 1))
  have fewer : (insertedTopic topic).count '$' < topic.count '$' :=
    (count_getSubstitution (by decide) (by decide) (by decide) topic).2 special
  rw [same, noDollar] at counts
  omega

/-- Nor does it have a placeholder of the number. -/
theorem not_mem_of_result_eq
    {topic : List Char} {size : ℕ} {pieces : List Piece}
    (reads : Reads [numberEntry size] topic pieces)
    (same : pieces.flatMap Piece.result = topic) (entry : String × String)
    (word : List Char) : Piece.replaced entry word ∉ pieces := by
  intro member
  have counts := reads.count_eq fun _ placeholder =>
    placeholder.count_opening isPlain_number
  have noOpening : (numberEntry size).2.toList.count '\x7b' = 0 :=
    List.count_eq_zero_of_not_mem (not_mem_toString (by decide) (size + 1))
  have positive : 0 < pieces.countP Piece.isReplaced :=
    List.countP_pos_iff.mpr ⟨_, member, rfl⟩
  rw [same, noOpening] at counts
  omega

theorem insertedTopic_eq
    {topic : List Char} (verbatim : ¬ HasSpecial topic) :
    insertedTopic topic = topic :=
  getSubstitution_of_verbatim _ _ _ verbatim

/-- Which topics stand in the names of default queues as they are. -/
theorem numberedName_plain_iff (topic : String) (size : ℕ) :
    numberedName topic size = topic ++ ":" ++ toString (size + 1) ↔
      ¬ HasSpecial topic.toList ∧
        ∀ word, IsPlaceholder "consumerNumber".toList word →
          ¬ word <:+: topic.toList := by
  have plain : ∀ entry ∈ [numberEntry size], IsPlain entry.1.toList :=
    IsPlain.forall_mem isPlain_number
  have reads := reads_scan plain (insertedTopic topic.toList)
  rw [numberedName_eq_iff topic size reads]
  constructor
  · intro same
    have verbatim := not_hasSpecial_of_result_eq reads same
    refine ⟨verbatim, ?_⟩
    rw [insertedTopic_eq verbatim] at reads same
    rintro word placeholder ⟨left, right, itself⟩
    obtain ⟨found, present, member⟩ :=
      reads.mem_of_placeholder plain List.mem_cons_self placeholder
        (itself.symm.trans (List.append_assoc left word right))
    exact not_mem_of_result_eq reads same found word member
  · rintro ⟨verbatim, absent⟩
    rw [insertedTopic_eq verbatim] at reads ⊢
    refine reads.result_eq ?_
    intro entry word member
    obtain ⟨present, placeholder⟩ := reads.placeholder_of_mem member
    rw [List.mem_singleton.mp present] at placeholder
    exact absent word placeholder (reads.infix_of_mem member)

/-! ## Substitution at once -/

/-- Variables are substituted at once exactly if their values are harmless, and the
default queue of a topic is named after it exactly if the topic is substituted as it
is and has no placeholder of the number. -/
theorem substituted_at_once_iff
    {entries : List (String × String)} (named : AreVariables entries)
    (pubSub : PubSub) (topic : String) :
    (SubstitutedOnce entries ↔ AreHarmless entries) ∧
      (pubSub.generateQueueName defaultPattern topic =
          topic ++ ":" ++ toString ((pubSub.registered topic).size + 1) ↔
        ¬ HasSpecial topic.toList ∧
          ∀ word, IsPlaceholder "consumerNumber".toList word →
            ¬ word <:+: topic.toList) := by
  constructor
  · exact substitutedOnce_iff named
  · rw [generateQueueName_eq]
    exact numberedName_plain_iff topic (pubSub.registered topic).size

/-- The variables of the first queue of a topic. -/
def newsEntries : List (String × String) :=
  [("topic", "news"), ("consumerNumber", "1")]

theorem areVariables_newsEntries : AreVariables newsEntries where
  identifiers := by
    intro entry member
    rcases List.mem_cons.mp member with same | other
    · rw [same]
      exact isIdentifier_of_all (by decide) (by decide) (by decide)
    · rw [List.mem_singleton.mp other]
      exact isIdentifier_number
  distinct := by decide

theorem substituted_at_once_iff_news :
    SubstitutedOnce newsEntries ∧
      create.generateQueueName defaultPattern "news" = "news:1" := by
  have decided :=
    substituted_at_once_iff areVariables_newsEntries create "news"
  refine ⟨decided.1.mpr ?_, decided.2.mpr ⟨?_, ?_⟩⟩
  · exact areHarmless_of_foreign (by decide) (by decide) (by decide)
      areVariables_newsEntries.identifiers (by decide)
  · rintro ⟨left, sign, right, _, itself⟩
    have dollar : '$' ∈ "news".toList := by
      rw [itself]
      simp
    exact absurd dollar (by decide)
  · intro word placeholder within
    obtain ⟨others, opens⟩ := placeholder.exists_cons
    have brace : '\x7b' ∈ "news".toList := by
      refine within.subset ?_
      rw [opens]
      exact List.mem_cons_self
    exact absurd brace (by decide)

/-- A value is scanned again, a special dollar sign stands for the placeholder, and
so it does in a topic. -/
theorem patternValues_substituted :
    substitute "{hello}, {world}!" [("hello", "{world}"), ("world", "World")] =
        "World, World!" ∧
      substituteOnce [("hello", "{world}"), ("world", "World")]
          "{hello}, {world}!" =
        "{world}, World!" ∧
      substitute "{price}" [("price", "$&")] = "{price}" ∧
      substituteOnce [("price", "$&")] "{price}" = "$&" ∧
      create.generateQueueName defaultPattern "$&" = "{topic}:1" ∧
      ¬ (∀ entries, AreVariables entries → SubstitutedOnce entries) ∧
      ¬ ∀ (pubSub : PubSub) (topic : String),
          pubSub.generateQueueName defaultPattern topic =
            topic ++ ":" ++ toString ((pubSub.registered topic).size + 1) := by
  refine ⟨by decide, by decide, by decide, by decide, by decide, ?_, ?_⟩
  · intro once
    have named : AreVariables [("price", "$&")] := by
      refine ⟨?_, by decide⟩
      intro entry member
      rw [List.mem_singleton.mp member]
      exact isIdentifier_of_all (by decide) (by decide) (by decide)
    exact absurd (once _ named _ (.refl _) "{price}") (by decide)
  · intro namesTopic
    exact absurd (namesTopic create "$&") (by decide)

end Amq.PubSub
