import SwitchShell.Grammar.Token

namespace SwitchShell

/-! Groups of tokens and the words they may claim.

A group looks at a window of words and claims some of them under its policy.
`claims` says which words go to which tokens, `claim` binds them, and
`candidates` says which tokens may come next.
-/

/-- How the tokens of a group combine. -/
inductive Policy where
  /-- One word in the window goes to one of the tokens. -/
  | oneOf
  /-- Any of the tokens, in any order, anywhere in the window. -/
  | anyUnordered
  /-- An initial run of the tokens in their order. -/
  | anyOrdered
  /-- Every token in its order. -/
  | allOrdered
deriving DecidableEq, Repr

/-- An option of a command. -/
structure OptionGroup where
  policy : Policy
  tokens : List Token
  required : Bool := false
deriving DecidableEq, Repr

/-- A word of the window that goes to a token. -/
structure Claim where
  slot : Nat
  position : Nat
deriving DecidableEq, Repr

/-- A claimed word with its value. -/
structure Nail where
  slot : Nat
  position : Nat
  value : Value
deriving DecidableEq, Repr

/-- Tokens that may follow. -/
inductive Candidates where
  /-- These, beside what other options offer. -/
  | alongside (tokens : List Token)
  /-- These and nothing else. -/
  | only (tokens : List Token)
deriving DecidableEq, Repr

namespace Candidates

def tokens : Candidates → List Token
  | .alongside tokens => tokens
  | .only tokens => tokens

def isOnly : Candidates → Bool
  | .only _ => true
  | .alongside _ => false

end Candidates

namespace OptionGroup

def oneOf (tokens : List Token) : OptionGroup := { policy := .oneOf, tokens }

def anyUnordered (tokens : List Token) : OptionGroup := { policy := .anyUnordered, tokens }

def anyOrdered (tokens : List Token) : OptionGroup := { policy := .anyOrdered, tokens }

def allOrdered (tokens : List Token) : OptionGroup := { policy := .allOrdered, tokens }

/-- A line must use the group. -/
def mandatory (group : OptionGroup) : OptionGroup := { group with required := true }

def nameKinds (group : OptionGroup) : List NameKind :=
  group.tokens.filterMap Token.nameKind?

/-- The slot of the first token that accepts the word. -/
def slotOf? (names : Names) (group : OptionGroup) (word : String) : Option Nat :=
  group.tokens.findIdx? fun token => token.accepts names word

/-- Every word that some token accepts; more than one is too many. -/
def claimOne (names : Names) (group : OptionGroup) (window : List String) :
    Except Fault (List Claim) :=
  let claims := window.zipIdx.filterMap fun (word, position) =>
    (group.slotOf? names word).map fun slot => { slot, position }
  if 1 < claims.length then .error .superfluous else .ok claims

/-- The first slot that accepts the word and is not taken, counted from `slot`. -/
def freeSlot? (names : Names) (taken : List Nat) (word : String) :
    Nat → List Token → Option Nat
  | _, [] => none
  | slot, token :: tokens =>
      if !taken.contains slot && token.accepts names word then some slot
      else freeSlot? names taken word (slot + 1) tokens

/-- Gives each word in turn to the first free token that accepts it. -/
def claimFree (names : Names) (tokens : List Token) (taken : List Nat) :
    Nat → List String → List Claim
  | _, [] => []
  | position, word :: words =>
      match freeSlot? names taken word 0 tokens with
      | some slot =>
          { slot, position } :: claimFree names tokens (slot :: taken) (position + 1) words
      | none => claimFree names tokens taken (position + 1) words

/-- The number of leading words that the leading tokens accept one by one. -/
def runLength (names : Names) : List Token → List String → Nat
  | token :: tokens, word :: words =>
      if token.accepts names word then runLength names tokens words + 1 else 0
  | _, _ => 0

/-- The first `count` words go to the first `count` tokens. -/
def diagonal (count : Nat) : List Claim :=
  (List.range count).map fun place => { slot := place, position := place }

/-- Nothing unless the first token accepts the first word; then all must fit. -/
def claimAll (names : Names) (group : OptionGroup) (window : List String) :
    Except Fault (List Claim) :=
  match window with
  | [] => .ok []
  | word :: _ =>
      match group.tokens with
      | [] => .error .outOfRange
      | first :: _ =>
          if first.accepts names word then
            if runLength names group.tokens window = group.tokens.length then
              .ok (diagonal group.tokens.length)
            else .error .optionRequired
          else .ok []

/-- Which words of the window go to which tokens, in the order of the words. -/
def claims (names : Names) (group : OptionGroup) (window : List String) :
    Except Fault (List Claim) :=
  match group.policy with
  | .oneOf => group.claimOne names window
  | .anyUnordered => .ok (claimFree names group.tokens [] 0 window)
  | .anyOrdered => .ok (diagonal (runLength names group.tokens window))
  | .allOrdered => group.claimAll names window

/-- Some token that must take part has no claim. -/
def missesRequired (group : OptionGroup) (claims : List Claim) : Bool :=
  group.tokens.zipIdx.any fun (token, slot) =>
    token.required && !(claims.any fun claim => claim.slot == slot)

/-- Only the policies that may leave tokens out look at required tokens. -/
def checksTokens : Policy → Bool
  | .anyUnordered | .anyOrdered => true
  | .oneOf | .allOrdered => false

/-- Binds one claimed word. -/
def nail (names : Names) (group : OptionGroup) (window : List String) (claim : Claim) :
    Except Fault Nail :=
  match group.tokens[claim.slot]?, window[claim.position]? with
  | some token, some word =>
      if token.isAmbiguous word then .error .ambiguous
      else
        match token.bind names word with
        | .ok value => .ok { slot := claim.slot, position := claim.position, value }
        | .error fault => .error fault
  | _, _ => .error .outOfRange

/-- Claims words of the window and binds them.  No claim means that the group
does not apply. -/
def claim (names : Names) (group : OptionGroup) (window : List String) :
    Except Fault (List Nail) :=
  match group.claims names window with
  | .error fault => .error fault
  | .ok claims =>
      if !claims.isEmpty && checksTokens group.policy && group.missesRequired claims then
        .error .optionRequired
      else claims.mapM (group.nail names window)

/-- Follows the words from the one that began the sequence. -/
def sequenceCandidates (names : Names) : List Token → List String → Except Fault Candidates
  | [], _ => .error .outOfRange
  | token :: _, [] => .ok (.only [token])
  | token :: tokens, word :: words =>
      if !token.accepts names word then .ok (.alongside [token])
      else if tokens.isEmpty then .ok (.alongside [])
      else sequenceCandidates names tokens words

/-- The words from the first one that `token` accepts. -/
def fromAccepted? (names : Names) (token : Token) : List String → Option (List String)
  | [] => none
  | word :: words =>
      if token.accepts names word then some (word :: words) else fromAccepted? names token words

/-- The tokens that may follow the words typed so far. -/
def candidates (names : Names) (group : OptionGroup) (words : List String) :
    Except Fault Candidates :=
  match group.policy with
  | .oneOf =>
      if words.any fun word => (group.slotOf? names word).isSome then .ok (.alongside [])
      else .ok (.alongside group.tokens)
  | .anyUnordered =>
      let claimed := claimFree names group.tokens [] 0 words
      .ok (.alongside ((group.tokens.zipIdx.filter fun (_, slot) =>
        !(claimed.any fun claim => claim.slot == slot)).map Prod.fst))
  | .anyOrdered =>
      match group.tokens with
      | [] => .error .outOfRange
      | first :: _ =>
          match fromAccepted? names first words with
          | none => .ok (.alongside [first])
          | some started =>
              let run := runLength names group.tokens started
              match group.tokens[run]? with
              | some next =>
                  if run = started.length then .ok (.alongside [next]) else .ok (.alongside [])
              | none => .ok (.alongside [])
  | .allOrdered =>
      match group.tokens with
      | [] => .error .outOfRange
      | first :: _ =>
          match fromAccepted? names first words with
          | none => .ok (.alongside [first])
          | some started => sequenceCandidates names group.tokens started

def braced (text : String) : String := "\x7b" ++ text ++ "\x7d"

def bracketed (text : String) : String := "[" ++ text ++ "]"

/-- Each form nested in the brackets of the one before it. -/
def nested : List String → String
  | [] => ""
  | form :: forms =>
      let inner := nested forms
      bracketed (if inner.isEmpty then form else form ++ " " ++ inner)

/-- The form of the group in a usage line. -/
def synopsis (group : OptionGroup) : String :=
  let optional (body : String) : String := if group.required then body else bracketed body
  match group.policy with
  | .oneOf =>
      match group.tokens.flatMap Token.alternatives with
      | [only] => optional only
      | forms =>
          let joined := String.intercalate "|" forms
          if group.required then braced joined else bracketed joined
  | .allOrdered => optional (String.intercalate " " (group.tokens.map Token.usage))
  | .anyOrdered => nested (group.tokens.map Token.usage)
  | .anyUnordered =>
      let joined := String.intercalate " " (group.tokens.map fun token => bracketed token.usage)
      if group.required then braced joined else joined

end OptionGroup

end SwitchShell
