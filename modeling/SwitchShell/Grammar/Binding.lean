import SwitchShell.Grammar.OptionGroup

namespace SwitchShell

/-! Binding the option words of a command.

The options are tried in their order against the words that nobody has claimed
yet.  The first unused option that claims the first of these words wins the
round; each option wins one round at most.
-/

/-- A value and the token it was bound by. -/
structure Binding where
  option : Nat
  slot : Nat
  value : Value
deriving DecidableEq, Repr

namespace Binding

/-- The words nobody has claimed, with their places in the line. -/
def unclaimed (words : List String) (filled : List (Option Binding)) : List (Nat × String) :=
  (words.zip filled).zipIdx.filterMap fun ((word, binding), place) =>
    if binding.isNone then some (place, word) else none

/-- The first option that claims the first word of the window, and its nails. -/
def winner (names : Names) (window : List String) :
    List (Nat × OptionGroup) → Except Fault (Option (Nat × List Nail))
  | [] => .ok none
  | (index, group) :: groups =>
      match group.claim names window with
      | .error fault => .error fault
      | .ok nails =>
          if nails.any fun nail => nail.position == 0 then .ok (some (index, nails))
          else winner names window groups

/-- Enters the nails of an option at the places their positions stand for. -/
def enter (option : Nat) (places : List (Nat × String)) :
    List Nail → List (Option Binding) → Except Fault (List (Option Binding))
  | [], filled => .ok filled
  | nail :: nails, filled =>
      match places[nail.position]? with
      | some (place, _) =>
          enter option places nails
            (filled.set place (some { option, slot := nail.slot, value := nail.value }))
      | none => .error .outOfRange

/-- Plays rounds until every word is claimed.  `rounds` options are unused. -/
def play (names : Names) (words : List String) :
    Nat → List (Nat × OptionGroup) → List (Option Binding) → Except Fault (List Binding)
  | rounds, unused, filled =>
      match unclaimed words filled with
      | [] => .ok (filled.filterMap id)
      | (place, word) :: places =>
          match rounds with
          | 0 => .error (.badOption word)
          | rounds + 1 =>
              match winner names (((place, word) :: places).map Prod.snd) unused with
              | .error fault => .error fault
              | .ok none => .error (.badOption word)
              | .ok (some (index, nails)) =>
                  match enter index ((place, word) :: places) nails filled with
                  | .error fault => .error fault
                  | .ok filled =>
                      play names words rounds (unused.filter fun entry => entry.1 ≠ index) filled

/-- Binds every word to a token of one of the options, in the order of the words. -/
def ofWords (names : Names) (options : List OptionGroup) (words : List String) :
    Except Fault (List Binding) :=
  play names words options.length
    (options.zipIdx.map fun (group, index) => (index, group))
    (words.map fun _ => none)

/-- Fails if an option that must be used bound nothing. -/
def checkRequired (options : List OptionGroup) (bindings : List Binding) : Except Fault Unit :=
  if options.zipIdx.any fun (group, index) =>
      group.required && !(bindings.any fun binding => binding.option == index) then
    .error .optionRequired
  else .ok ()

end Binding

end SwitchShell
