import SwitchShell.Proofs.Command.Failure
import SwitchShell.Proofs.Feature.Faults

namespace SwitchShell.Feature

variable (arguments : Arguments)

open SwitchShell.Action SwitchShell.Query

theorem report_info (text : String) : (Output.info text).IsReport := fun _ => by simp

theorem report_table (headers : List String) (rows : List (List String)) (indent : Nat) :
    (Output.table headers rows indent).IsReport := fun _ => by simp

theorem report_pairs (entries : List (String × String)) : (Output.pairs entries).IsReport :=
  fun _ => by simp [Output.pairs]

theorem tidy_info (text : String) : Tidy (info text) :=
  tidy_emit (report_info text)

namespace Debug

theorem setDebug_failsCleanly
    (known : ∀ text, arguments.first?.bind Value.word? = some text →
      (DebugKey.ofText? text).isSome) :
    (setDebug arguments).FailsCleanly := by
  unfold setDebug
  split
  · exact (tidy_throw (by decide)).failsCleanly
  · rename_i text given
    obtain ⟨key, found⟩ := Option.isSome_iff_exists.mp (known text given)
    simp only [DebugKey.parse, found]
    exact failsCleanly_last _ fun _ => rfl

theorem showDebug_tidy : (showDebug arguments).Tidy := by
  refine tidy_get.bind fun workspace => ?_
  extract_lets enabled done
  split
  · exact (tidy_info _).andThen (tidy_pure _)
  · exact tidy_pure _

end Debug

namespace Vlan

theorem configure_failsCleanly : (configure arguments).FailsCleanly := by
  unfold configure
  split
  · exact (tidy_throw (by decide)).failsCleanly
  · refine (tidy_query (failsWith_select _ _ _).failsInLine).before fun existing => ?_
    extract_lets enter
    split
    · exact (tidy_query (failsWith_insert _ _).failsInLine).before fun _ =>
        failsCleanly_last _ fun _ => rfl
    · exact failsCleanly_last _ fun _ => rfl

theorem isLine_vlanMissing (id : Int) : (Fault.refused (.vlanMissing id)).IsLine := by
  have text : (Fault.refused (.vlanMissing id)).message =
      "% " ++ ("VLAN " ++ toString id ++ " has not been configured.") := rfl
  rw [Fault.IsLine, text]
  simp only [String.toList_append, List.mem_append, not_or]
  exact ⟨by decide, ⟨by decide, Text.notMem_toString id⟩, by decide⟩

theorem shutdown_tidy : (shutdown arguments).Tidy := by
  refine tidy_get.bind fun workspace => ?_
  split
  · exact tidy_throw (by decide)
  · refine (tidy_query (failsWith_update _ _ _).failsInLine).bind fun changed => ?_
    split
    · exact tidy_throw (isLine_vlanMissing _)
    · exact tidy_pure _

theorem showInternal_tidy : showInternal.Tidy :=
  (tidy_query (failsWith_getMap _ _ _).failsInLine).bind fun _ =>
    (tidy_info _).andThen (tidy_info _)

theorem showVlan_tidy : (showVlan arguments).Tidy := by
  unfold showVlan
  split
  · exact showInternal_tidy.andThen (tidy_pure _)
  · refine (tidy_query (failsWith_select _ _ _).failsInLine).bind fun rows => ?_
    split
    · exact (tidy_info _).andThen (tidy_pure _)
    · split
      · exact (tidy_info _).andThen (tidy_pure _)
      · exact (tidy_emit (report_table _ _ _)).andThen (tidy_pure _)

end Vlan

namespace Interface

theorem configure_failsCleanly : (configure arguments).FailsCleanly := by
  unfold configure
  split
  · exact (tidy_throw (by decide)).failsCleanly
  · exact failsCleanly_last _ fun _ => rfl

theorem shutdown_tidy : (shutdown arguments).Tidy :=
  (tidy_objectOf _ (by decide)).bind fun _ =>
    (tidy_query (failsWith_mapSetKey _ _ _ _ _).failsInLine).andThen (tidy_pure _)

theorem showManagement_tidy : showManagement.Tidy :=
  (tidy_query (failsWith_getMap _ _ _).failsInLine).bind fun _ =>
    (tidy_info _).andThen (tidy_emit (report_pairs _))

theorem report_of_mem_shown {brief transceiver : Bool} {row : Row} {output : Output}
    (member : output ∈ shown brief transceiver row) : output.IsReport := by
  unfold shown at member
  extract_lets data at member
  split at member
  · rw [List.mem_singleton.mp member]
    exact report_info _
  · simp only [List.mem_cons, List.not_mem_nil, or_false] at member
    rcases member with rfl | rfl
    · exact report_info _
    · exact report_pairs _

theorem showInterface_tidy : (showInterface arguments).Tidy := by
  unfold showInterface
  split
  · exact showManagement_tidy.andThen (tidy_pure _)
  · have shows := failsWith_shownRows (arguments.word? 0 0) (show Fault.IsLine _ by decide)
      (show Fault.IsLine _ by decide)
    refine (tidy_query shows.failsInLine).bind fun rows => ?_
    refine Tidy.andThen (tidy_forM_emit fun output member => ?_) (tidy_pure _)
    obtain ⟨row, _, inside⟩ := List.mem_flatMap.mp member
    exact report_of_mem_shown inside

end Interface

namespace Lldp

theorem configure_tidy
    (known : ∀ word, arguments.word? 3 1 = some word →
      (advertisements.find? fun advertisement => advertisement.word == word).isSome) :
    (configure arguments).Tidy := by
  unfold configure
  -- Each of the steps is left out or made before the ones that follow it.
  extract_lets enabled finish clear select interval holdTime
  have cleared : ∀ u, Tidy (clear u) := by
    intro u
    unfold clear
    split
    · have clears := failsWith_requestClear (show Fault.IsLine _ by decide)
      exact (tidy_query (clears _).failsInLine).andThen (tidy_pure _)
    · exact tidy_pure _
  have selected : ∀ u, Tidy (select u) := by
    intro u
    unfold select
    split
    · rename_i word given
      obtain ⟨advertisement, found⟩ := Option.isSome_iff_exists.mp (known word given)
      simp only [found]
      exact (tidy_query (failsWith_set _ _).failsInLine).andThen (cleared ())
    · exact cleared ()
  have timed : ∀ u, Tidy (interval u) := by
    intro u
    unfold interval
    split
    · exact (tidy_query (failsWith_setOrClear _ _ _).failsInLine).andThen (selected ())
    · exact selected ()
  have held : ∀ u, Tidy (holdTime u) := by
    intro u
    unfold holdTime
    split
    · exact (tidy_query (failsWith_setOrClear _ _ _).failsInLine).andThen (timed ())
    · exact timed ()
  split
  · exact (tidy_query (failsWith_set _ _).failsInLine).andThen (held ())
  · exact held ()

theorem configureInterface_tidy : (configureInterface arguments).Tidy := by
  refine (tidy_objectOf _ (by decide)).bind fun object => ?_
  refine (tidy_query (failsWith_getMap _ _ _).failsInLine).bind fun config => ?_
  extract_lets here old new
  split
  · exact (tidy_query (failsWith_mapSetKey _ _ _ _ _).failsInLine).andThen (tidy_pure _)
  · exact tidy_pure _

theorem showAdvertised_tidy : showAdvertised.Tidy := by
  refine (tidy_query failsWith_settings.failsInLine).bind fun config => (tidy_info _).andThen ?_
  extract_lets lines
  split
  · exact tidy_info _
  · exact tidy_pure _

theorem showConfiguration_tidy (interface : Option String) : (showConfiguration interface).Tidy := by
  refine (tidy_query failsWith_settings.failsInLine).bind fun config => ?_
  refine (tidy_info _).andThen ((tidy_emit (report_pairs _)).andThen ((tidy_info _).andThen ?_))
  refine showAdvertised_tidy.andThen ((tidy_info _).andThen ?_)
  refine (tidy_query (failsWith_interfaceColumn _ _).failsInLine).bind fun entries => ?_
  exact (tidy_info _).andThen (tidy_emit (report_table _ _ _))

theorem showStatistics_tidy (interface : Option String) : (showStatistics interface).Tidy :=
  (tidy_query (failsWith_interfaceColumn _ _).failsInLine).bind fun _ =>
    tidy_emit (report_table _ _ _)

theorem showLldp_tidy : (showLldp arguments).Tidy := by
  unfold showLldp
  extract_lets interface showsAdvertised finish advertise
  have finished : ∀ u, Tidy (advertise u) := by
    intro u
    unfold advertise
    split
    · exact showAdvertised_tidy.andThen (tidy_pure _)
    · exact tidy_pure _
  split
  · exact (showConfiguration_tidy _).andThen (finished ())
  · exact (showStatistics_tidy _).andThen (finished ())
  · split
    · exact Tidy.andThen (tidy_throw (by decide)) (finished ())
    · exact finished ()

end Lldp

namespace Shell

theorem configure_failsCleanly : (configure arguments).FailsCleanly :=
  failsCleanly_last _ fun _ => rfl

theorem showContexts_tidy : (showContexts arguments).Tidy := by
  refine tidy_get.bind fun workspace => ?_
  extract_lets contexts lines
  split
  · exact (tidy_info _).andThen (tidy_pure _)
  · exact tidy_pure _

theorem showVersion_tidy : (showVersion arguments).Tidy := by
  unfold showVersion
  extract_lets finish software
  have finished : ∀ u, Tidy (software u) := by
    intro u
    unfold software
    split
    · refine (tidy_query (failsWith_getMap _ _ _).failsInLine).bind fun info => ?_
      exact (tidy_info _).andThen ((tidy_emit (report_pairs _)).andThen (tidy_pure _))
    · exact tidy_pure _
  split
  · refine (tidy_query (failsWith_getMap _ _ _).failsInLine).bind fun info => ?_
    exact (tidy_info _).andThen ((tidy_emit (report_pairs _)).andThen (finished ()))
  · exact finished ()

theorem showRunningConfig_tidy : (showRunningConfig arguments).Tidy := by
  refine (tidy_query failsWith_runningConfig.failsInLine).bind fun lines => ?_
  extract_lets finish
  split
  · exact (tidy_info _).andThen (tidy_pure _)
  · exact tidy_pure _

end Shell

end SwitchShell.Feature
