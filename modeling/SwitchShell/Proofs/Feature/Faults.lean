import SwitchShell.Feature.Builtin
import SwitchShell.Proofs.Command.Faults

namespace SwitchShell

/-- The lines that a user reads only if a context dangles. -/
inductive Dangling : String → Prop where
  | noVlan : Dangling (Fault.refused .noVlanSelected).message
  | noInterface : Dangling (Fault.refused .noInterfaceSelected).message
  | vlanMissing (id : Int) : Dangling (Fault.refused (.vlanMissing id)).message

namespace Fault

variable {fault : Fault} {start rest : String}

/-- The fault does not read as if a context dangled. -/
def Grounded (fault : Fault) : Prop :=
  ¬ Dangling fault.message

theorem take_of_append (long : 6 ≤ start.toList.length) :
    (start ++ rest).toList.take 6 = start.toList.take 6 := by
  rw [String.toList_append, List.take_append_of_le_length long]

theorem take_of_dangling {text : String} (dangling : Dangling text) :
    text.toList.take 6 ∈ ["% No V".toList, "% No i".toList, "% VLAN".toList] := by
  cases dangling with
  | noVlan => decide
  | noInterface => decide
  | vlanMissing id =>
      have line : (Fault.refused (.vlanMissing id)).message =
          "% VLAN " ++ (toString id ++ " has not been configured.") := by
        change "% " ++ ("VLAN " ++ toString id ++ " has not been configured.") = _
        rw [String.append_assoc, ← String.append_assoc]
        rfl
      rw [line, take_of_append (by decide)]
      decide

theorem grounded_of_take
    (other : fault.message.toList.take 6 ∉ ["% No V".toList, "% No i".toList, "% VLAN".toList]) :
    fault.Grounded := fun dangling => other (take_of_dangling dangling)

theorem grounded_of_append (line : fault.message = start ++ rest) (long : 6 ≤ start.toList.length)
    (other : start.toList.take 6 ∉ ["% No V".toList, "% No i".toList, "% VLAN".toList]) :
    fault.Grounded := by
  refine grounded_of_take ?_
  rw [line, take_of_append long]
  exact other

theorem grounded_noSuch (what : String) : (Fault.refused (.noSuch what)).Grounded := by
  have line : (Fault.refused (.noSuch what)).message = "% No such " ++ (what ++ ".") := by
    change "% " ++ ("No such " ++ what ++ ".") = _
    rw [String.append_assoc, ← String.append_assoc]
    rfl
  exact grounded_of_append line (by decide) (by decide)

theorem grounded_of_ne_refused (other : ∀ refusal, fault ≠ .refused refusal) : fault.Grounded := by
  cases fault with
  | refused refusal => exact absurd rfl (other refusal)
  | noSuchCommand | ambiguous | incompleteCommand | optionRequired | superfluous
  | noHelpAvailable | outOfRange | overflow => exact grounded_of_take (by decide)
  | badOption word | invalidValue word | duplicateCommand command | definition trouble =>
      exact grounded_of_append String.append_assoc (by decide) (by decide)
  | database trouble | settings trouble | terminal trouble =>
      exact grounded_of_append rfl (by decide) (by decide)

end Fault

namespace Feature

variable (arguments : Arguments) {kind : Fault → Prop}

open SwitchShell.Action SwitchShell.Query SwitchShell.Fault

namespace Debug

theorem setDebug_failsWith : (setDebug arguments).FailsWith Grounded := by
  unfold setDebug
  split
  · exact Action.failsWith_throw (grounded_of_ne_refused (by simp))
  · split
    · rename_i fault unknown
      refine Action.failsWith_throw (grounded_of_ne_refused fun refusal same => ?_)
      unfold DebugKey.parse at unknown
      split at unknown
      · contradiction
      · cases unknown
        contradiction
    · exact (failsWith_modify _).andThen (Action.failsWith_pure _)

theorem showDebug_failsWith : (showDebug arguments).FailsWith kind := by
  refine failsWith_get.bind fun workspace => ?_
  extract_lets enabled done
  split
  · exact (failsWith_emit _).andThen (Action.failsWith_pure _)
  · exact Action.failsWith_pure _

end Debug

namespace Vlan

theorem configure_failsWith : (configure arguments).FailsWith Grounded := by
  unfold configure
  split
  · exact Action.failsWith_throw (grounded_of_take (by decide))
  · refine (failsWith_query (failsWith_select _ _ _)).bind fun existing => ?_
    extract_lets enter
    have entered : ∀ u, (enter u).FailsWith Grounded := fun _ =>
      (failsWith_enter _).andThen (Action.failsWith_pure _)
    split
    · exact (failsWith_query (failsWith_insert _ _)).andThen (entered ())
    · exact entered ()

theorem showVlan_failsWith : (showVlan arguments).FailsWith kind := by
  unfold showVlan
  split
  · have internal : showInternal.FailsWith kind :=
      (failsWith_query (failsWith_getMap _ _ _)).bind fun _ =>
        (failsWith_emit _).andThen (failsWith_emit _)
    exact internal.andThen (Action.failsWith_pure _)
  · refine (failsWith_query (failsWith_select _ _ _)).bind fun rows => ?_
    split
    · exact (failsWith_emit _).andThen (Action.failsWith_pure _)
    · split <;> exact (failsWith_emit _).andThen (Action.failsWith_pure _)

theorem failsWith_runningConfig : runningConfig.FailsWith kind :=
  (failsWith_select _ _ _).map _

end Vlan

namespace Interface

theorem configure_failsWith : (configure arguments).FailsWith Grounded := by
  unfold configure
  split
  · exact Action.failsWith_throw (grounded_of_ne_refused (by simp))
  · exact (failsWith_enter _).andThen (Action.failsWith_pure _)

theorem failsWith_shownRows (name : Option String)
    (none : kind (.refused (.noSuch "interface")))
    (several : kind (.database (.duplicateRows "interface"))) :
    (shownRows name).FailsWith kind := by
  cases name with
  | none => exact (failsWith_select _ _ _).map _
  | some name =>
      refine (failsWith_select _ _ _).bind fun rows => FailsWith.map (failsWith_of ?_) _
      unfold expectOne
      split
      · exact faultIn_error none
      · exact faultIn_ok _
      · exact faultIn_error several

theorem showInterface_failsWith : (showInterface arguments).FailsWith Grounded := by
  unfold showInterface
  split
  · have management : showManagement.FailsWith Grounded :=
      (failsWith_query (failsWith_getMap _ _ _)).bind fun _ =>
        (failsWith_emit _).andThen (failsWith_emit _)
    exact management.andThen (Action.failsWith_pure _)
  · refine (failsWith_query (failsWith_shownRows _ (grounded_noSuch _) ?_)).bind fun rows => ?_
    · exact grounded_of_ne_refused (by simp)
    · exact (failsWith_forM_emit _).andThen (Action.failsWith_pure _)

theorem failsWith_runningConfig : runningConfig.FailsWith kind :=
  (failsWith_select _ _ _).map _

end Interface

namespace Lldp

theorem failsWith_settings : settings.FailsWith kind :=
  failsWith_getMap _ _ _

theorem failsWith_set (key value : String) : (set key value).FailsWith kind :=
  failsWith_mapSetKey _ _ _ _ _

theorem failsWith_setOrClear (key : String) (value : Value) (present : Bool) :
    (setOrClear key value present).FailsWith kind := by
  unfold setOrClear
  split
  · exact failsWith_set _ _
  · exact failsWith_mapDeleteKey _ _ _ _

theorem faultIn_nextCount (overflow : kind .overflow) (stored : Option String) :
    FaultIn kind (nextCount stored) := fun _ failed => eq_overflow_of_nextCount failed ▸ overflow

theorem failsWith_requestClear (overflow : kind .overflow) (counter : String) :
    (requestClear counter).FailsWith kind :=
  (failsWith_getMap _ _ _).bind fun _ =>
    (failsWith_of (faultIn_nextCount overflow _)).bind fun _ => failsWith_mapSetKey _ _ _ _ _

theorem configure_failsWith : (configure arguments).FailsWith Grounded := by
  unfold configure
  -- Each of the steps is left out or made before the ones that follow it.
  extract_lets enabled finish clear select interval holdTime
  have cleared : ∀ u, (clear u).FailsWith Grounded := by
    intro u
    unfold clear
    split
    · exact (failsWith_query (failsWith_requestClear (grounded_of_take (by decide)) _)).andThen (Action.failsWith_pure _)
    · exact Action.failsWith_pure _
  have selected : ∀ u, (select u).FailsWith Grounded := by
    intro u
    unfold select
    split
    · split
      · exact (failsWith_query (failsWith_set _ _)).andThen (cleared ())
      · refine Action.FailsWith.andThen (Action.failsWith_throw ?_) (cleared ())
        exact grounded_of_ne_refused (by simp)
    · exact cleared ()
  have timed : ∀ u, (interval u).FailsWith Grounded := by
    intro u
    unfold interval
    split
    · exact (failsWith_query (failsWith_setOrClear _ _ _)).andThen (selected ())
    · exact selected ()
  have held : ∀ u, (holdTime u).FailsWith Grounded := by
    intro u
    unfold holdTime
    split
    · exact (failsWith_query (failsWith_setOrClear _ _ _)).andThen (timed ())
    · exact timed ()
  split
  · exact (failsWith_query (failsWith_set _ _)).andThen (held ())
  · exact held ()

theorem failsWith_interfaceColumn (column : String) (interface : Option String) :
    (interfaceColumn column interface).FailsWith kind :=
  (failsWith_select _ _ _).map _

theorem showAdvertised_failsWith : showAdvertised.FailsWith kind := by
  refine (failsWith_query failsWith_settings).bind fun config => (failsWith_emit _).andThen ?_
  extract_lets lines
  split
  · exact failsWith_emit _
  · exact Action.failsWith_pure _

theorem showConfiguration_failsWith (interface : Option String) :
    (showConfiguration interface).FailsWith kind := by
  refine (failsWith_query failsWith_settings).bind fun config => ?_
  refine (failsWith_emit _).andThen ((failsWith_emit _).andThen ((failsWith_emit _).andThen ?_))
  refine showAdvertised_failsWith.andThen ((failsWith_emit _).andThen ?_)
  refine (failsWith_query (failsWith_interfaceColumn _ _)).bind fun entries => ?_
  exact (failsWith_emit _).andThen (failsWith_emit _)

theorem showStatistics_failsWith (interface : Option String) :
    (showStatistics interface).FailsWith kind :=
  (failsWith_query (failsWith_interfaceColumn _ _)).bind fun _ => failsWith_emit _

theorem showLldp_failsWith : (showLldp arguments).FailsWith Grounded := by
  unfold showLldp
  extract_lets interface showsAdvertised finish advertise
  have finished : ∀ u, (advertise u).FailsWith Grounded := by
    intro u
    unfold advertise
    split
    · exact showAdvertised_failsWith.andThen (Action.failsWith_pure _)
    · exact Action.failsWith_pure _
  split
  · exact (showConfiguration_failsWith _).andThen (finished ())
  · exact (showStatistics_failsWith _).andThen (finished ())
  · split
    · refine Action.FailsWith.andThen (Action.failsWith_throw ?_) (finished ())
      exact grounded_of_ne_refused (by simp)
    · exact finished ()

theorem failsWith_runningConfig : runningConfig.FailsWith kind :=
  failsWith_settings.map _

end Lldp

namespace Shell

theorem configure_failsWith : (configure arguments).FailsWith kind :=
  (failsWith_enter _).andThen (Action.failsWith_pure _)

theorem showContexts_failsWith : (showContexts arguments).FailsWith kind := by
  refine failsWith_get.bind fun workspace => ?_
  extract_lets contexts lines
  split
  · exact (failsWith_emit _).andThen (Action.failsWith_pure _)
  · exact Action.failsWith_pure _

theorem showVersion_failsWith : (showVersion arguments).FailsWith kind := by
  unfold showVersion
  extract_lets finish software
  have finished : ∀ u, (software u).FailsWith kind := by
    intro u
    unfold software
    split
    · refine (failsWith_query (failsWith_getMap _ _ _)).bind fun info => ?_
      exact (failsWith_emit _).andThen ((failsWith_emit _).andThen (Action.failsWith_pure _))
    · exact Action.failsWith_pure _
  split
  · refine (failsWith_query (failsWith_getMap _ _ _)).bind fun info => ?_
    exact (failsWith_emit _).andThen ((failsWith_emit _).andThen (finished ()))
  · exact finished ()

theorem failsWith_runningConfig : runningConfig.FailsWith kind := by
  refine Lldp.failsWith_runningConfig.bind fun lldp => ?_
  refine Vlan.failsWith_runningConfig.bind fun vlans => ?_
  exact Interface.failsWith_runningConfig.map _

theorem showRunningConfig_failsWith : (showRunningConfig arguments).FailsWith kind := by
  refine (failsWith_query failsWith_runningConfig).bind fun lines => ?_
  extract_lets finish
  split
  · exact (failsWith_emit _).andThen (Action.failsWith_pure _)
  · exact Action.failsWith_pure _

end Shell

end Feature

end SwitchShell
