import Mathlib.Data.Finset.Card
import Mathlib.Data.List.Induction
import Mathlib.Data.Nat.Digits.Defs
import SwitchShell.Proofs.Grammar.Use

namespace SwitchShell

namespace Text

theorem decimalValue_eq_ofDigits (digits : List Char) :
    decimalValue digits = Nat.ofDigits 10 (digits.reverse.map digitValue) := by
  induction digits using List.reverseRecOn with
  | nil => rfl
  | append_singleton digits last ih =>
      have step : decimalValue (digits ++ [last]) = 10 * decimalValue digits + digitValue last := by
        simp [decimalValue]
      rw [step, ih, List.reverse_append, List.reverse_singleton, List.singleton_append,
        List.map_cons, Nat.ofDigits_cons, Nat.add_comm]

theorem natural?_eq_some_iff {text : String} {number : Nat} :
    natural? text = some number ↔
      text ≠ "" ∧ (∀ c ∈ text.toList, c.isDigit = true) ∧ decimalValue text.toList = number := by
  have empty : text.toList.isEmpty = true ↔ text = "" := by simp
  have digits : text.toList.all Char.isDigit = true ↔ ∀ c ∈ text.toList, c.isDigit = true :=
    List.all_eq_true
  rw [natural?, ← digits, ne_eq, ← empty]
  cases text.toList.isEmpty <;> cases text.toList.all Char.isDigit <;> simp

theorem toString_ne_empty (number : Nat) : toString number ≠ "" := by
  intro empty
  have digits := toList_toString number
  rw [empty] at digits
  exact Nat.toDigits_ne_nil digits.symm

theorem natural?_toString (number : Nat) : natural? (toString number) = some number := by
  refine natural?_eq_some_iff.mpr
    ⟨toString_ne_empty number, fun _ => isDigit_of_mem_toString, ?_⟩
  rw [toList_toString]
  exact Nat.ofDigitChars_ten_toDigits

end Text

namespace Token

variable {names : Names} {token : Token} {word start text : String} {value : Value}
  {low high : Option Int} {literals : List Literal} {literal : Literal}

theorem integerWithin?_eq_some_iff {value : Int} :
    integerWithin? low high word = some value ↔
      ∃ number : Nat, Text.natural? word = some number ∧ value = number ∧
        number ≤ Text.maxSigned64 ∧ (∀ least ∈ low, least ≤ number) ∧
        ∀ greatest ∈ high, (number : Int) ≤ greatest := by
  have inside : ∀ number : Nat, (low.any ((number : Int) < ·) || high.any (· < (number : Int))) = false ↔
      (∀ least ∈ low, least ≤ (number : Int)) ∧ ∀ greatest ∈ high, (number : Int) ≤ greatest := by
    intro number
    cases low <;> cases high <;> simp
  unfold integerWithin?
  cases Text.natural? word with
  | none => simp
  | some number =>
      simp only [Option.some.injEq, exists_eq_left', ← inside, ← Nat.not_lt]
      by_cases big : Text.maxSigned64 < number
      · simp [big]
      · cases out : (low.any ((number : Int) < ·) || high.any (· < (number : Int))) <;>
          simp [big, eq_comm]

theorem takes_keyword_iff (kind : token.kind = .keyword literal) :
    token.Takes names word value ↔
      abbreviates word literal.word = true ∧ value = .word literal.word := by
  constructor
  · rintro ⟨accepted, _, bound⟩
    simp only [accepts, kind] at accepted
    exact ⟨accepted, keyword_of_bind kind bound⟩
  · rintro ⟨abbreviated, rfl⟩
    exact ⟨by simp only [accepts, kind, abbreviated], by simp only [isAmbiguous, kind],
      by simp only [bind, kind, abbreviated, if_true]⟩

theorem takes_integer_iff (kind : token.kind = .integer low high) :
    token.Takes names word value ↔
      ∃ number : Nat, Text.natural? word = some number ∧ value = .integer number ∧
        number ≤ Text.maxSigned64 ∧ (∀ least ∈ low, least ≤ (number : Int)) ∧
        ∀ greatest ∈ high, (number : Int) ≤ greatest := by
  constructor
  · rintro ⟨_, _, bound⟩
    simp only [bind, kind] at bound
    split at bound
    · rename_i number within
      cases bound
      obtain ⟨number, digits, rfl, inside⟩ := integerWithin?_eq_some_iff.mp within
      exact ⟨number, digits, rfl, inside⟩
    · contradiction
  · rintro ⟨number, digits, rfl, inside⟩
    have within : integerWithin? low high word = some (number : Int) :=
      integerWithin?_eq_some_iff.mpr ⟨number, digits, rfl, inside⟩
    exact ⟨by simp only [accepts, kind, within, Option.isSome_some],
      by simp only [isAmbiguous, kind], by simp only [bind, kind, within]⟩

theorem accepts_choice_iff (kind : token.kind = .choice literals) :
    token.accepts names word = true ↔
      ∃ literal ∈ literals, abbreviates word literal.word = true := by
  simp only [accepts, kind, List.any_eq_true]

/-- Of choices that do not begin one another a clear word begins one at most. -/
theorem clear_choice_iff (kind : token.kind = .choice literals) (distinct : literals.Nodup)
    (free : ∀ one ∈ literals, ∀ other ∈ literals,
      abbreviates one.word other.word = true → other = one) :
    token.isAmbiguous word = false ↔
      ∀ one ∈ literals, abbreviates word one.word = true →
        ∀ other ∈ literals, abbreviates word other.word = true → other = one := by
  have few : (literals.filter (abbreviates word ·.word)).length ≤ 1 ↔
      ∀ one ∈ literals, abbreviates word one.word = true →
        ∀ other ∈ literals, abbreviates word other.word = true → other = one := by
    rw [← List.toFinset_card_of_nodup (distinct.filter _), Finset.card_le_one]
    simp only [List.mem_toFinset, List.mem_filter, and_imp]
    exact forall₃_congr fun _ _ _ => forall₃_congr fun _ _ _ => eq_comm
  simp only [isAmbiguous, kind, Bool.and_eq_false_iff, Bool.not_eq_false', List.any_eq_true,
    beq_iff_eq, decide_eq_false_iff_not, Nat.not_lt, few, or_iff_right_iff_imp]
  -- the literal that the word spells out is the only one that it begins
  rintro ⟨exact, inside, rfl⟩ one member begins other among begins'
  rw [free exact inside one member begins, free exact inside other among begins']

theorem bind_choice (kind : token.kind = .choice literals) (member : literal ∈ literals)
    (begins : abbreviates word literal.word = true)
    (only : ∀ other ∈ literals, abbreviates word other.word = true → other = literal) :
    token.bind names word = .ok (.word literal.word) := by
  obtain ⟨value, bound⟩ : ∃ value, token.bind names word = .ok value :=
    exists_bind_of_accepts ((accepts_choice_iff kind).mpr ⟨literal, member, begins⟩)
  rw [bound]
  simp only [bind, kind] at bound
  split at bound
  · rename_i chosen found
    cases bound
    obtain ⟨inside, short⟩ := prefix_of_chosen? found
    rw [only chosen inside (abbreviates_iff.mpr ⟨(abbreviates_iff.mp begins).1, short⟩)]
  · contradiction

/-- Of choices that do not begin one another a word stands for the one that it
begins, if it begins no other. -/
theorem takes_choice_iff (kind : token.kind = .choice literals) (distinct : literals.Nodup)
    (free : ∀ one ∈ literals, ∀ other ∈ literals,
      abbreviates one.word other.word = true → other = one) :
    token.Takes names word value ↔
      ∃ literal ∈ literals, value = .word literal.word ∧ abbreviates word literal.word = true ∧
        ∀ other ∈ literals, abbreviates word other.word = true → other = literal := by
  constructor
  · rintro ⟨accepted, clear, bound⟩
    obtain ⟨literal, member, begins⟩ := (accepts_choice_iff kind).mp accepted
    have only := (clear_choice_iff kind distinct free).mp clear literal member begins
    have same := bound.symm.trans (bind_choice kind member begins only)
    exact ⟨literal, member, Except.ok.inj same, begins, only⟩
  · rintro ⟨literal, member, rfl, begins, only⟩
    have clear : token.isAmbiguous word = false := by
      refine (clear_choice_iff kind distinct free).mpr fun one inside begun other among begun' => ?_
      rw [only one inside begun, only other among begun']
    exact ⟨(accepts_choice_iff kind).mpr ⟨literal, member, begins⟩, clear,
      bind_choice kind member begins only⟩

theorem takes_keyword (kind : token.kind = .keyword literal) (nonempty : literal.word ≠ "") :
    token.Takes names literal.word (.word literal.word) :=
  (takes_keyword_iff kind).mpr ⟨abbreviates_self nonempty, rfl⟩

theorem takes_choice (kind : token.kind = .choice literals) (member : literal ∈ literals)
    (nonempty : literal.word ≠ "") : token.Takes names literal.word (.word literal.word) where
  accepted := (accepts_choice_iff kind).mpr ⟨literal, member, abbreviates_self nonempty⟩
  clear := by
    simp only [isAmbiguous, kind, Bool.and_eq_false_iff, Bool.not_eq_false']
    exact .inl (List.any_eq_true.mpr ⟨literal, member, beq_self_eq_true _⟩)
  bound := by
    have spelled : (literals.find? fun other => other.word == literal.word).isSome = true :=
      List.find?_isSome.mpr ⟨literal, member, beq_self_eq_true _⟩
    obtain ⟨other, found⟩ := Option.isSome_iff_exists.mp spelled
    have test := List.find?_some found
    have same : other.word = literal.word := beq_iff_eq.mp test
    simp only [bind, kind, chosen?, found, Option.some_or, same]

theorem takes_integer {number : Nat} (kind : token.kind = .integer low high)
    (small : number ≤ Text.maxSigned64) (atLeast : ∀ least ∈ low, least ≤ (number : Int))
    (atMost : ∀ greatest ∈ high, (number : Int) ≤ greatest) :
    token.Takes names (toString number) (.integer number) :=
  (takes_integer_iff kind).mpr
    ⟨number, Text.natural?_toString number, rfl, small, atLeast, atMost⟩

theorem takes_name {family : NameKind} (kind : token.kind = .name family)
    (listed : word ∈ names.get family) : token.Takes names word (.word word) := by
  have accepted : token.accepts names word = true := by
    simp only [accepts, kind]
    exact List.contains_iff_mem.mpr listed
  exact ⟨accepted, by simp only [isAmbiguous, kind], by simp only [bind, kind, accepted, if_true]⟩

theorem takes_text_of_bind (accepted : token.accepts names word = true)
    (bound : token.bind names word = .ok value) : token.Takes names value.text value := by
  -- A literal that begins with a word is not empty unless the word is.
  have longer : ∀ {literal : Literal}, word ≠ "" → word.toList <+: literal.word.toList →
      literal.word ≠ "" := by
    intro literal nonempty short empty
    rw [empty] at short
    exact nonempty (String.toList_eq_nil_iff.mp (List.prefix_nil.mp short))
  cases kind : token.kind with
  | keyword literal =>
      obtain rfl := keyword_of_bind kind bound
      simp only [accepts, kind] at accepted
      obtain ⟨nonempty, short⟩ := abbreviates_iff.mp accepted
      exact takes_keyword kind (longer nonempty short)
  | choice literals =>
      simp only [accepts, kind, List.any_eq_true] at accepted
      simp only [bind, kind] at bound
      obtain ⟨_, _, abbreviated⟩ := accepted
      split at bound
      · rename_i literal chosen
        cases bound
        obtain ⟨member, short⟩ := prefix_of_chosen? chosen
        exact takes_choice kind member (longer (abbreviates_iff.mp abbreviated).1 short)
      · contradiction
  | integer low high =>
      simp only [bind, kind] at bound
      split at bound
      · rename_i number within
        cases bound
        obtain ⟨number, _, rfl, small, atLeast, atMost⟩ := integerWithin?_eq_some_iff.mp within
        exact takes_integer kind small atLeast atMost
      · contradiction
  | name family =>
      obtain ⟨rfl, listed⟩ := listed_of_bind kind bound
      exact takes_name kind listed

/-- The bounds of the token, if it has any, are numbers that can be typed: none is
negative at the lower end, and none has more than 64 bits at the upper end. -/
def Typable (token : Token) : Prop :=
  ∀ low high, token.kind = .integer low high →
    (∀ least ∈ low, 0 ≤ least) ∧ ∀ greatest ∈ high, greatest ≤ Text.maxSigned64

theorem exists_takes_of_mem_values (typable : token.Typable) (listed : text ∈ token.values names)
    (nonempty : text ≠ "") : ∃ value : Value, value.text = text ∧ token.Takes names text value := by
  unfold values at listed
  split at listed
  · rename_i literal kind
    obtain rfl := List.mem_singleton.mp listed
    exact ⟨_, rfl, takes_keyword kind nonempty⟩
  · rename_i literals kind
    obtain ⟨literal, member, rfl⟩ := List.mem_map.mp listed
    exact ⟨_, rfl, takes_choice kind member nonempty⟩
  · rename_i low high kind
    obtain ⟨step, inside, rfl⟩ := List.mem_map.mp listed
    obtain ⟨positive, small⟩ := typable _ _ kind
    have less : step < (high + 1 - low).toNat := List.mem_range.mp inside
    have least : 0 ≤ low := positive low rfl
    have greatest : high ≤ Text.maxSigned64 := small high rfl
    obtain ⟨number, same⟩ : ∃ number : Nat, low + (step : Int) = number :=
      Int.eq_ofNat_of_zero_le (by omega)
    rw [same]
    refine ⟨.integer number, rfl, takes_integer kind (by omega) ?_ ?_⟩
    · rintro _ ⟨⟩
      omega
    · rintro _ ⟨⟩
      omega
  · contradiction
  · rename_i family kind
    exact ⟨_, rfl, takes_name kind listed⟩

/-- The number that a word of digits is read as. -/
def numberOf (word : String) : Nat :=
  Nat.ofDigits 10 (word.toList.reverse.map Text.digitValue)

theorem integerWithin?_eq_some_iff_digits {value : Int} :
    integerWithin? low high word = some value ↔
      (word ≠ "" ∧ (∀ c ∈ word.toList, c.isDigit = true) ∧ numberOf word ≤ Text.maxSigned64 ∧
        (∀ least ∈ low, least ≤ (numberOf word : Int)) ∧
        ∀ greatest ∈ high, (numberOf word : Int) ≤ greatest) ∧ value = numberOf word := by
  rw [integerWithin?_eq_some_iff]
  constructor
  · rintro ⟨number, read, rfl, small, atLeast, atMost⟩
    obtain ⟨nonempty, digits, same⟩ := Text.natural?_eq_some_iff.mp read
    rw [Text.decimalValue_eq_ofDigits] at same
    subst same
    exact ⟨⟨nonempty, digits, small, atLeast, atMost⟩, rfl⟩
  · rintro ⟨⟨nonempty, digits, small, atLeast, atMost⟩, rfl⟩
    exact ⟨numberOf word, Text.natural?_eq_some_iff.mpr
      ⟨nonempty, digits, Text.decimalValue_eq_ofDigits _⟩, rfl, small, atLeast, atMost⟩

/-- A token binds exactly the words it accepts, except that a choice with an empty
literal also binds the empty word.  An integer is accepted if it has digits only and
its number is within 64 bits and within the bounds, and is bound to this number.
What is bound or listed is taken for itself. -/
theorem tokens_agree (names : Names) (token : Token) (word : String) :
    ((∃ value, token.bind names word = .ok value) ↔
      token.accepts names word = true ∨ (word = "" ∧ token.HasEmptyChoice)) ∧
    (∀ value, token.accepts names word = true → token.bind names word = .ok value →
      token.Takes names value.text value) ∧
    (∀ low high, token.kind = .integer low high →
      (token.accepts names word = true ↔
        word ≠ "" ∧ (∀ c ∈ word.toList, c.isDigit = true) ∧ numberOf word ≤ Text.maxSigned64 ∧
          (∀ least ∈ low, least ≤ (numberOf word : Int)) ∧
          ∀ greatest ∈ high, (numberOf word : Int) ≤ greatest) ∧
      (token.accepts names word = true → token.bind names word = .ok (.integer (numberOf word)))) ∧
    ∀ text ∈ token.complete names word, word.toList <+: text.toList ∧
      (token.Typable → text ≠ "" →
        ∃ value : Value, value.text = text ∧ token.Takes names text value) := by
  refine ⟨exists_bind_iff, fun value => takes_text_of_bind, fun low high kind => ⟨?_, ?_⟩,
    fun text member => ?_⟩
  · simp only [accepts, kind, Option.isSome_iff_exists, integerWithin?_eq_some_iff_digits,
      exists_and_left, exists_eq, and_true]
  · intro accepted
    simp only [accepts, kind] at accepted
    obtain ⟨number, within⟩ := Option.isSome_iff_exists.mp accepted
    obtain ⟨_, rfl⟩ := integerWithin?_eq_some_iff_digits.mp within
    simp only [bind, kind, within]
  · obtain ⟨listed, begun⟩ := List.mem_filter.mp member
    exact ⟨Text.startsWith_iff.mp begun, fun typable => exists_takes_of_mem_values typable listed⟩

/-- A number with a leading zero, and one that is listed. -/
theorem hold_times_agree :
    let token := range 2 10
    token.Typable ∧ token.accepts {} "06" = true ∧ token.bind {} "06" = .ok (.integer 6) ∧
      token.Takes {} "6" (.integer 6) ∧ "10" ∈ token.complete {} "1" ∧
      ∃ value : Value, value.text = "10" ∧ token.Takes {} "10" value := by
  intro token
  have typable : token.Typable := by
    rintro _ _ ⟨⟩
    exact ⟨by rintro _ ⟨⟩; decide, by rintro _ ⟨⟩; decide⟩
  have accepted : token.accepts {} "06" = true := by decide
  obtain ⟨_, taken, integer, _⟩ := tokens_agree {} token "06"
  obtain ⟨_, _, _, listed⟩ := tokens_agree {} token "1"
  have bound : token.bind {} "06" = .ok (.integer 6) := (integer _ _ rfl).2 accepted
  have member : "10" ∈ token.complete {} "1" := by decide
  exact ⟨typable, accepted, bound, taken _ accepted bound, member,
    (listed _ member).2 typable (by decide)⟩

/-- The exception is there: the empty word is bound and not accepted. -/
theorem empty_choice_binds :
    let token := choice [("", "")]
    token.bind {} "" = .ok (.word "") ∧ token.accepts {} "" = false :=
  ⟨rfl, rfl⟩

end Token

end SwitchShell
