import SwitchShell.Feature.Builtin
import SwitchShell.Proofs.Command.Reading

namespace SwitchShell.Feature

open SwitchShell.Action

/-- Whatever its arguments are, the handler only reads. -/
def OnlyReads (handler : Handler) : Prop :=
  ∀ arguments, (handler arguments).OnlyReads

namespace Debug

theorem onlyReads_setDebug : OnlyReads setDebug := by
  intro arguments
  unfold setDebug
  split
  · exact onlyReads_throw _
  · split
    · exact onlyReads_throw _
    · exact (onlyReads_modify _).andThen (onlyReads_pure _)

theorem onlyReads_showDebug : OnlyReads showDebug := by
  intro arguments
  refine onlyReads_get.bind fun workspace => ?_
  extract_lets enabled done
  split
  · exact (onlyReads_emit _).andThen (onlyReads_pure _)
  · exact onlyReads_pure _

end Debug

namespace Vlan

theorem onlyReads_showVlan : OnlyReads showVlan := by
  intro arguments
  unfold showVlan
  split
  · have internal : showInternal.OnlyReads :=
      (onlyReads_query (Query.onlyReads_getMap _ _ _)).bind fun _ =>
        (onlyReads_emit _).andThen (onlyReads_emit _)
    exact internal.andThen (onlyReads_pure _)
  · refine (onlyReads_query (Query.onlyReads_select _ _ _)).bind fun rows => ?_
    split
    · exact (onlyReads_emit _).andThen (onlyReads_pure _)
    · split
      all_goals exact (onlyReads_emit _).andThen (onlyReads_pure _)

theorem onlyReads_runningConfig : runningConfig.OnlyReads :=
  (Query.onlyReads_select _ _ _).bind fun _ => Query.onlyReads_pure _

end Vlan

namespace Interface

theorem onlyReads_configure : OnlyReads configure := by
  intro arguments
  unfold configure
  split
  · exact onlyReads_throw _
  · exact (onlyReads_enter _).andThen (onlyReads_pure _)

theorem onlyReads_shownRows (name : Option String) : (shownRows name).OnlyReads := by
  cases name with
  | some name =>
      refine (Query.onlyReads_select _ _ _).bind fun rows => ?_
      exact (Query.onlyReads_of _).bind fun _ => Query.onlyReads_pure _
  | none => exact (Query.onlyReads_select _ _ _).bind fun _ => Query.onlyReads_pure _

theorem onlyReads_showInterface : OnlyReads showInterface := by
  intro arguments
  unfold showInterface
  split
  · have management : showManagement.OnlyReads :=
      (onlyReads_query (Query.onlyReads_getMap _ _ _)).bind fun _ =>
        (onlyReads_emit _).andThen (onlyReads_emit _)
    exact management.andThen (onlyReads_pure _)
  · refine (onlyReads_query (onlyReads_shownRows _)).bind fun rows => ?_
    exact (onlyReads_forM_emit _).andThen (onlyReads_pure _)

theorem onlyReads_runningConfig : runningConfig.OnlyReads :=
  (Query.onlyReads_select _ _ _).bind fun _ => Query.onlyReads_pure _

end Interface

namespace Lldp

theorem onlyReads_interfaceColumn (column : String) (interface : Option String) :
    (interfaceColumn column interface).OnlyReads :=
  (Query.onlyReads_select _ _ _).bind fun _ => Query.onlyReads_pure _

theorem onlyReads_showAdvertised : showAdvertised.OnlyReads := by
  refine (onlyReads_query (Query.onlyReads_getMap _ _ _)).bind fun config => ?_
  refine (onlyReads_emit _).andThen ?_
  extract_lets lines
  split
  · exact onlyReads_emit _
  · exact onlyReads_pure _

theorem onlyReads_showConfiguration (interface : Option String) :
    (showConfiguration interface).OnlyReads := by
  refine (onlyReads_query (Query.onlyReads_getMap _ _ _)).bind fun config => ?_
  refine (onlyReads_emit _).andThen ((onlyReads_emit _).andThen ((onlyReads_emit _).andThen ?_))
  refine onlyReads_showAdvertised.andThen ((onlyReads_emit _).andThen ?_)
  exact (onlyReads_query (onlyReads_interfaceColumn _ _)).bind fun _ =>
    (onlyReads_emit _).andThen (onlyReads_emit _)

theorem onlyReads_showLldp : OnlyReads showLldp := by
  intro arguments
  unfold showLldp
  extract_lets interface showsAdvertised finish advertise
  have finished : ∀ u, (advertise u).OnlyReads := by
    intro u
    unfold advertise
    split
    · exact onlyReads_showAdvertised.andThen (onlyReads_pure _)
    · exact onlyReads_pure _
  split
  · exact (onlyReads_showConfiguration _).andThen (finished ())
  · have statistics : (showStatistics interface).OnlyReads :=
      (onlyReads_query (onlyReads_interfaceColumn _ _)).bind fun _ => onlyReads_emit _
    exact statistics.andThen (finished ())
  · split
    · exact OnlyReads.andThen (onlyReads_throw _) (finished ())
    · exact finished ()

theorem onlyReads_runningConfig : runningConfig.OnlyReads :=
  (Query.onlyReads_getMap _ _ _).bind fun _ => Query.onlyReads_pure _

end Lldp

namespace Shell

theorem onlyReads_quit : OnlyReads quit := fun _ => onlyReads_pure _

theorem onlyReads_exit : OnlyReads exit := fun _ => onlyReads_pure _

theorem onlyReads_configure : OnlyReads configure := fun _ =>
  (onlyReads_enter _).andThen (onlyReads_pure _)

theorem onlyReads_showContexts : OnlyReads showContexts := by
  intro arguments
  refine onlyReads_get.bind fun workspace => ?_
  extract_lets contexts lines
  split
  · exact (onlyReads_emit _).andThen (onlyReads_pure _)
  · exact onlyReads_pure _

theorem onlyReads_showVersion : OnlyReads showVersion := by
  intro arguments
  unfold showVersion
  extract_lets finish software
  have finished : ∀ u, (software u).OnlyReads := by
    intro u
    unfold software
    split
    · refine (onlyReads_query (Query.onlyReads_getMap _ _ _)).bind fun info => ?_
      exact (onlyReads_emit _).andThen ((onlyReads_emit _).andThen (onlyReads_pure _))
    · exact onlyReads_pure _
  split
  · refine (onlyReads_query (Query.onlyReads_getMap _ _ _)).bind fun info => ?_
    exact (onlyReads_emit _).andThen ((onlyReads_emit _).andThen (finished ()))
  · exact finished ()

theorem onlyReads_runningConfig : runningConfig.OnlyReads :=
  Lldp.onlyReads_runningConfig.bind fun _ =>
    Vlan.onlyReads_runningConfig.bind fun _ =>
      Interface.onlyReads_runningConfig.bind fun _ => Query.onlyReads_pure _

theorem onlyReads_showRunningConfig : OnlyReads showRunningConfig := by
  intro arguments
  refine (onlyReads_query onlyReads_runningConfig).bind fun lines => ?_
  extract_lets finish
  split
  · exact (onlyReads_emit _).andThen (onlyReads_pure _)
  · exact onlyReads_pure _

end Shell

end SwitchShell.Feature
