import SwitchShell.Proofs.Grammar.Acceptance

namespace SwitchShell

/-! Which literal a word chooses.

An option that takes one word of several gives it to the first token that accepts
it, and that token alone decides what the word stands for.  A literal that another
token spells out, or another one that the word abbreviates as well, is not looked at.
-/

namespace Token

variable {names : Names} {token : Token} {word : String}

/-- The words a token stands for if it is a keyword or a choice. -/
def literals (token : Token) : List String :=
  match token.kind with
  | .keyword literal => [literal.word]
  | .choice literals => literals.map (·.word)
  | .integer _ _ | .name _ => []

def isLiteral (token : Token) : Bool :=
  match token.kind with
  | .keyword _ | .choice _ => true
  | .integer _ _ | .name _ => false

theorem accepts_iff_literals (literal : token.isLiteral = true) :
    token.accepts names word = true ↔ ∃ literal ∈ token.literals, abbreviates word literal = true := by
  obtain ⟨kind, help, required⟩ := token
  cases kind <;> simp_all [isLiteral, accepts, literals]

theorem isAmbiguous_iff_literals (literal : token.isLiteral = true) :
    token.isAmbiguous word = true ↔
      word ∉ token.literals ∧ 1 < (token.literals.filter (abbreviates word ·)).length := by
  obtain ⟨kind, help, required⟩ := token
  cases kind with
  | keyword literal =>
      simp only [isAmbiguous, literals, Bool.false_eq_true, false_iff, not_and, Nat.not_lt]
      exact fun _ => List.length_filter_le _ _
  | choice literals =>
      simp [isAmbiguous, Token.literals, List.filter_map, Function.comp_def]
  | integer low high => simp [isLiteral] at literal
  | name family => simp [isLiteral] at literal

theorem takes_of_mem_literals (spelled : word ∈ token.literals) (nonempty : word ≠ "") :
    token.Takes names word (.word word) := by
  unfold literals at spelled
  split at spelled
  · rename_i literal kind
    obtain rfl := List.mem_singleton.mp spelled
    exact takes_keyword kind nonempty
  · rename_i literals kind
    obtain ⟨literal, member, rfl⟩ := List.mem_map.mp spelled
    exact takes_choice kind member nonempty
  · contradiction
  · contradiction

theorem exists_literal_of_bind {value : Value} (literal : token.isLiteral = true)
    (bound : token.bind names word = .ok value) : ∃ literal ∈ token.literals, value = .word literal := by
  cases kind : token.kind with
  | keyword literal => exact ⟨_, by simp [literals, kind], keyword_of_bind kind bound⟩
  | choice literals =>
      obtain ⟨chosen, member, same⟩ := choice_of_bind kind bound
      refine ⟨chosen.word, ?_, same⟩
      simp only [Token.literals, kind]
      exact List.mem_map_of_mem member
  | integer low high => simp [isLiteral, kind] at literal
  | name family => simp [isLiteral, kind] at literal

end Token

namespace OptionGroup

variable {names : Names} {group : OptionGroup} {token : Token} {word : String}

/-- The token is the first one of the option that accepts the word. -/
def Decides (names : Names) (group : OptionGroup) (word : String) (token : Token) : Prop :=
  ∃ before after, group.tokens = before ++ token :: after ∧
    (∀ other ∈ before, other.accepts names word = false) ∧ token.accepts names word = true

def literals (group : OptionGroup) : List String :=
  group.tokens.flatMap Token.literals

theorem Decides.mem (decides : group.Decides names word token) : token ∈ group.tokens := by
  obtain ⟨before, after, split, _⟩ := decides
  simp [split]

theorem exists_decides (accepted : ∃ token ∈ group.tokens, token.accepts names word = true) :
    ∃ token, group.Decides names word token := by
  obtain ⟨token, found⟩ := Option.isSome_iff_exists.mp
    (List.find?_isSome.mpr accepted : (group.tokens.find? (·.accepts names word)).isSome = true)
  obtain ⟨accepted, before, after, split, refused⟩ := List.find?_eq_some_iff_append.mp found
  exact ⟨token, before, after, split, by simpa using refused, accepted⟩

/-- The first token that accepts the only word binds it, unless it finds it ambiguous. -/
theorem claim_single (policy : group.policy = .oneOf) (decides : group.Decides names word token) :
    ∃ slot, group.claim names [word] =
      if token.isAmbiguous word then .error .ambiguous
      else (token.bind names word).map fun value => [{ slot, position := 0, value }] := by
  obtain ⟨before, after, split, refused, accepted⟩ := decides
  refine ⟨before.length, ?_⟩
  have found : group.slotOf? names word = some before.length := by
    have none : before.findIdx? (fun token => token.accepts names word) = none :=
      List.findIdx?_eq_none_iff.mpr refused
    simp [slotOf?, split, List.findIdx?_append, none, List.findIdx?_cons, accepted]
  have held : group.tokens[before.length]? = some token := by simp [split]
  have claims : group.claims names [word] = .ok [{ slot := before.length, position := 0 }] := by
    simp [OptionGroup.claims, policy, claimOne, found]
  simp only [claim, claims, policy, checksTokens, Bool.and_false, Bool.false_and,
    Bool.false_eq_true, if_false, List.mapM_cons, List.mapM_nil, nail, held,
    List.getElem?_cons_zero]
  cases token.isAmbiguous word with
  | true => rfl
  | false => cases token.bind names word <;> rfl

theorem exists_decides_of_literal (literal : ∀ token ∈ group.tokens, token.isLiteral = true)
    {one : String} (member : one ∈ group.literals) (begun : abbreviates word one = true) :
    ∃ token, group.Decides names word token := by
  obtain ⟨token, inside, among⟩ := List.mem_flatMap.mp member
  exact exists_decides ⟨token, inside,
    (Token.accepts_iff_literals (literal token inside)).mpr ⟨one, among, begun⟩⟩

theorem binds_spelled_iff (policy : group.policy = .oneOf)
    (literal : ∀ token ∈ group.tokens, token.isLiteral = true) (nonempty : word ≠ "")
    (spelled : word ∈ group.literals) :
    (∃ slot, group.claim names [word] = .ok [{ slot, position := 0, value := .word word }]) ↔
      ∃ token, group.Decides names word token ∧ word ∈ token.literals := by
  constructor
  · rintro ⟨slot, claimed⟩
    obtain ⟨token, decides⟩ : ∃ token, group.Decides names word token :=
      exists_decides_of_literal literal spelled (abbreviates_self nonempty)
    obtain ⟨own, outcome⟩ := claim_single policy decides
    rw [claimed] at outcome
    refine ⟨token, decides, ?_⟩
    cases clear : token.isAmbiguous word <;> rw [clear] at outcome
    · cases bound : token.bind names word with
      | error fault => simp [bound, Except.map] at outcome
      | ok value =>
          obtain ⟨chosen, among, rfl⟩ :=
            Token.exists_literal_of_bind (literal token decides.mem) bound
          simp only [bound, Except.map, Bool.false_eq_true, if_false, Except.ok.injEq,
            List.cons.injEq, Nail.mk.injEq, Value.word.injEq] at outcome
          exact outcome.1.2.2 ▸ among
    · simp at outcome
  · rintro ⟨token, decides, among⟩
    obtain ⟨own, outcome⟩ := claim_single policy decides
    have taken : token.Takes names word (.word word) :=
      Token.takes_of_mem_literals among nonempty
    exact ⟨own, by rw [outcome, taken.clear, taken.bound]; rfl⟩

theorem refuses_ambiguous_iff (policy : group.policy = .oneOf)
    (literal : ∀ token ∈ group.tokens, token.isLiteral = true) (unspelled : word ∉ group.literals)
    {one : String} (member : one ∈ group.literals) (begun : abbreviates word one = true) :
    group.claim names [word] = .error .ambiguous ↔
      ∃ token, group.Decides names word token ∧
        1 < (token.literals.filter (abbreviates word ·)).length := by
  constructor
  · intro refused
    obtain ⟨token, decides⟩ : ∃ token, group.Decides names word token :=
      exists_decides_of_literal literal member begun
    obtain ⟨own, outcome⟩ := claim_single policy decides
    rw [refused] at outcome
    cases ambiguous : token.isAmbiguous word with
    | true =>
        have isLiteral := literal token decides.mem
        exact ⟨token, decides, ((Token.isAmbiguous_iff_literals isLiteral).mp ambiguous).2⟩
    | false =>
        obtain ⟨_, _, _, _, accepted⟩ := decides
        obtain ⟨value, bound⟩ := Token.exists_bind_of_accepts accepted
        simp [ambiguous, bound, Except.map] at outcome
  · rintro ⟨token, decides, several⟩
    obtain ⟨own, outcome⟩ := claim_single policy decides
    have among : word ∉ token.literals := fun inside =>
      unspelled (List.mem_flatMap.mpr ⟨token, decides.mem, inside⟩)
    have isLiteral := literal token decides.mem
    rw [outcome, (Token.isAmbiguous_iff_literals isLiteral).mpr ⟨among, several⟩]
    rfl

/-- A literal that is spelled out is bound exactly if the first token that accepts the
word has it among its own.  A word that is none of the literals but begins some is
refused as ambiguous exactly if the first token that accepts it has several of these. -/
theorem literal_chosen_iff (policy : group.policy = .oneOf)
    (literal : ∀ token ∈ group.tokens, token.isLiteral = true) (nonempty : word ≠ "") :
    (word ∈ group.literals →
      ((∃ slot, group.claim names [word] = .ok [{ slot, position := 0, value := .word word }]) ↔
        ∃ token, group.Decides names word token ∧ word ∈ token.literals)) ∧
    (word ∉ group.literals → ∀ one ∈ group.literals, abbreviates word one = true →
      (group.claim names [word] = .error .ambiguous ↔
        ∃ token, group.Decides names word token ∧
          1 < (token.literals.filter (abbreviates word ·)).length)) :=
  ⟨binds_spelled_iff policy literal nonempty,
    fun unspelled _ => refuses_ambiguous_iff policy literal unspelled⟩

/-- Within one choice the literal that is spelled out wins, and `i` is refused. -/
theorem ip_chosen :
    let group := oneOf [.choice [("ipv6", ""), ("ip", "")], .keyword "arp" ""]
    (∀ token ∈ group.tokens, token.isLiteral = true) ∧ "ip" ∈ group.literals ∧
      (∃ slot, group.claim {} ["ip"] = .ok [{ slot, position := 0, value := .word "ip" }]) ∧
      "i" ∉ group.literals ∧ abbreviates "i" "ip" = true ∧
      group.claim {} ["i"] = .error .ambiguous := by
  intro group
  have literal : ∀ token ∈ group.tokens, token.isLiteral = true := by decide
  have spelled : "ip" ∈ group.literals := by decide
  have unspelled : "i" ∉ group.literals := by decide
  obtain ⟨binds, _⟩ := @literal_chosen_iff {} _ _ rfl literal (by decide : "ip" ≠ "")
  obtain ⟨_, refuses⟩ := @literal_chosen_iff {} _ _ rfl literal (by decide : "i" ≠ "")
  refine ⟨literal, spelled, (binds spelled).mpr ?_, unspelled, by decide,
    (refuses unspelled "ip" spelled (by decide)).mpr ?_⟩
  · exact ⟨_, ⟨[], _, rfl, List.forall_mem_nil _, by decide⟩, by decide⟩
  · exact ⟨_, ⟨[], _, rfl, List.forall_mem_nil _, by decide⟩, by decide⟩

/-- Of the same literals in two choices the one in front is bound to either word. -/
theorem ip_bound_as_ipv6 :
    let group := oneOf [.choice [("ipv6", ""), ("mac", "")], .choice [("ip", ""), ("arp", "")]]
    group.claim {} ["ip"] = .ok [{ slot := 0, position := 0, value := .word "ipv6" }] ∧
      group.claim {} ["i"] = .ok [{ slot := 0, position := 0, value := .word "ipv6" }] :=
  ⟨rfl, rfl⟩

end OptionGroup

end SwitchShell
