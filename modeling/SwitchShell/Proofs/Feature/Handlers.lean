import SwitchShell.Feature.Builtin
import SwitchShell.Proofs.Command.Action

namespace SwitchShell.Feature

variable {arguments : Arguments} {before after : Workspace} {exchanges : List Exchange}
  {result : Except Fault Outcome}

/-- However the handler ends, the contexts stay and the session goes on. -/
def Proceeds (handler : Handler) : Prop :=
  ∀ arguments, Action.Stays (fun outcome => outcome = .proceed) (handler arguments)

open SwitchShell.Action

namespace Debug

theorem setDebug_proceeds : Proceeds setDebug := by
  intro arguments
  unfold setDebug
  split
  · exact stays_throw _
  · split
    · exact stays_throw _
    · refine Stays.andThen (stays_modify ?_) (stays_pure rfl)
      exact fun _ => rfl

theorem showDebug_proceeds : Proceeds showDebug := by
  intro arguments
  refine stays_get.bind fun workspace _ => ?_
  extract_lets enabled done
  split
  · exact (stays_emit _).andThen (stays_pure rfl)
  · exact stays_pure rfl

end Debug

namespace Vlan

theorem shutdown_proceeds : Proceeds shutdown := by
  intro arguments
  refine stays_get.bind fun workspace _ => ?_
  split
  · exact stays_throw _
  · refine (stays_query _).bind fun changed _ => ?_
    split
    · exact stays_throw _
    · exact stays_pure rfl

theorem showInternal_stays : Stays (fun _ => True) showInternal :=
  (stays_query _).bind fun _ _ => (stays_emit _).andThen (stays_emit _)

theorem showVlan_proceeds : Proceeds showVlan := by
  intro arguments
  unfold showVlan
  split
  · exact showInternal_stays.andThen (stays_pure rfl)
  · refine (stays_query _).bind fun rows _ => ?_
    split
    · exact (stays_emit _).andThen (stays_pure rfl)
    · split
      all_goals exact (stays_emit _).andThen (stays_pure rfl)

/-- The `vlan` command enters the mode of the VLAN as its last step. -/
theorem enters_of_configure (ends : (configure arguments).Ends before exchanges result after) :
    (∃ fault, result = .error fault ∧ after.contexts = before.contexts) ∨
      ∃ id, arguments.integer? = some id ∧ result = .ok .proceed ∧
        after.contexts = { mode := vlanMode, object := some (.integer id) } :: before.contexts := by
  unfold configure at ends
  split at ends
  · obtain ⟨_, rfl, rfl⟩ := ends_throw_iff.mp ends
    exact .inl ⟨_, rfl, rfl⟩
  · rename_i id bound
    rcases ends_bind_iff.mp ends with
      ⟨_, _, existing, middle, rfl, asked, onward⟩ | ⟨fault, asked, rfl⟩
    · obtain ⟨_, rfl⟩ := ends_query_iff.mp asked
      have entered : ∀ {rest},
          (do enter { mode := vlanMode, object := some (.integer id) }
              return .proceed : Action Outcome).Ends middle rest result after →
            result = .ok .proceed ∧ after.contexts =
              { mode := vlanMode, object := some (.integer id) } :: middle.contexts := by
        intro rest last
        simp only [ends_bind_iff, ends_enter_iff, ends_pure_iff] at last
        grind
      extract_lets next at onward
      split at onward
      · rcases ends_bind_iff.mp onward with
          ⟨_, _, _, later, rfl, inserted, last⟩ | ⟨fault, inserted, rfl⟩
        · obtain ⟨_, rfl⟩ := ends_query_iff.mp inserted
          exact .inr ⟨id, bound, entered last⟩
        · obtain ⟨_, rfl⟩ := ends_query_iff.mp inserted
          exact .inl ⟨fault, rfl, rfl⟩
      · exact .inr ⟨id, bound, entered onward⟩
    · obtain ⟨_, rfl⟩ := ends_query_iff.mp asked
      exact .inl ⟨fault, rfl, rfl⟩

end Vlan

namespace Interface

theorem shutdown_proceeds : Proceeds shutdown := fun _ =>
  (stays_objectOf _ _).bind fun _ _ => (stays_query _).andThen (stays_pure rfl)

theorem showManagement_stays : Stays (fun _ => True) showManagement :=
  (stays_query _).bind fun _ _ => (stays_emit _).andThen (stays_emit _)

theorem showInterface_proceeds : Proceeds showInterface := by
  intro arguments
  unfold showInterface
  split
  · exact showManagement_stays.andThen (stays_pure rfl)
  · exact (stays_query _).bind fun _ _ => (stays_forM_emit _).andThen (stays_pure rfl)

/-- The `interface` command enters the mode of the interface and asks nothing. -/
theorem enters_of_configure (ends : (configure arguments).Ends before exchanges result after) :
    (∃ fault, result = .error fault ∧ after.contexts = before.contexts) ∨
      ∃ name, arguments.first? = some name ∧ exchanges = [] ∧ result = .ok .proceed ∧
        after.contexts = { mode := interfaceMode, object := some name } :: before.contexts := by
  unfold configure at ends
  split at ends
  · obtain ⟨_, rfl, rfl⟩ := ends_throw_iff.mp ends
    exact .inl ⟨_, rfl, rfl⟩
  · rename_i name bound
    simp only [ends_bind_iff, ends_enter_iff, ends_pure_iff] at ends
    grind

end Interface

namespace Lldp

theorem configure_proceeds : Proceeds configure := by
  intro arguments
  unfold configure
  -- Each of the steps is left out or made before the ones that follow it.
  extract_lets enabled finish clear select interval holdTime
  have finished : ∀ u, Stays (· = .proceed) (finish u) := fun _ => stays_pure rfl
  have cleared : ∀ u, Stays (· = .proceed) (clear u) := by
    intro u
    unfold clear
    split
    · exact (stays_query _).andThen (finished ())
    · exact finished ()
  have selected : ∀ u, Stays (· = .proceed) (select u) := by
    intro u
    unfold select
    split
    · split
      · exact (stays_query _).andThen (cleared ())
      · exact Stays.andThen (stays_throw _) (cleared ())
    · exact cleared ()
  have timed : ∀ u, Stays (· = .proceed) (interval u) := by
    intro u
    unfold interval
    split
    · exact (stays_query _).andThen (selected ())
    · exact selected ()
  have held : ∀ u, Stays (· = .proceed) (holdTime u) := by
    intro u
    unfold holdTime
    split
    · exact (stays_query _).andThen (timed ())
    · exact timed ()
  split
  · exact (stays_query _).andThen (held ())
  · exact held ()

theorem configureInterface_proceeds : Proceeds configureInterface := by
  intro arguments
  refine (stays_objectOf _ _).bind fun object _ => ?_
  refine (stays_query _).bind fun config _ => ?_
  extract_lets here old new
  split
  · exact (stays_query _).andThen (stays_pure rfl)
  · exact stays_pure rfl

theorem showAdvertised_stays : Stays (fun _ => True) showAdvertised := by
  refine (stays_query _).bind fun config _ => (stays_emit _).andThen ?_
  extract_lets lines
  split
  · exact stays_emit _
  · exact stays_pure trivial

theorem showConfiguration_stays (interface : Option String) :
    Stays (fun _ => True) (showConfiguration interface) := by
  refine (stays_query _).bind fun config _ => ?_
  refine (stays_emit _).andThen ((stays_emit _).andThen ((stays_emit _).andThen ?_))
  refine showAdvertised_stays.andThen ((stays_emit _).andThen ?_)
  exact (stays_query _).bind fun entries _ => (stays_emit _).andThen (stays_emit _)

theorem showStatistics_stays (interface : Option String) :
    Stays (fun _ => True) (showStatistics interface) :=
  (stays_query _).bind fun _ _ => stays_emit _

theorem showLldp_proceeds : Proceeds showLldp := by
  intro arguments
  unfold showLldp
  extract_lets interface showsAdvertised finish advertise
  have finished : ∀ u, Stays (· = .proceed) (advertise u) := by
    intro u
    unfold advertise
    split
    · exact showAdvertised_stays.andThen (stays_pure rfl)
    · exact stays_pure rfl
  split
  · exact (showConfiguration_stays _).andThen (finished ())
  · exact (showStatistics_stays _).andThen (finished ())
  · split
    · exact Stays.andThen (stays_throw _) (finished ())
    · exact finished ()

end Lldp

namespace Shell

theorem showContexts_proceeds : Proceeds showContexts := by
  intro arguments
  refine stays_get.bind fun workspace _ => ?_
  extract_lets contexts lines
  split
  · exact (stays_emit _).andThen (stays_pure rfl)
  · exact stays_pure rfl

theorem showVersion_proceeds : Proceeds showVersion := by
  intro arguments
  unfold showVersion
  extract_lets finish software
  have finished : ∀ u, Stays (· = .proceed) (software u) := by
    intro u
    unfold software
    split
    · refine (stays_query _).bind fun info _ => ?_
      exact (stays_emit _).andThen ((stays_emit _).andThen (stays_pure rfl))
    · exact stays_pure rfl
  split
  · refine (stays_query _).bind fun info _ => ?_
    exact (stays_emit _).andThen ((stays_emit _).andThen (finished ()))
  · exact finished ()

theorem showRunningConfig_proceeds : Proceeds showRunningConfig := by
  intro arguments
  refine (stays_query _).bind fun lines _ => ?_
  extract_lets finish
  split
  · exact (stays_emit _).andThen (stays_pure rfl)
  · exact stays_pure rfl

theorem ends_quit_iff (arguments : Arguments) :
    (quit arguments).Ends before exchanges result after ↔
      exchanges = [] ∧ result = .ok .terminate ∧ after = before :=
  ends_pure_iff

theorem ends_exit_iff (arguments : Arguments) :
    (exit arguments).Ends before exchanges result after ↔
      exchanges = [] ∧ result = .ok .leave ∧ after = before :=
  ends_pure_iff

theorem ends_configure_iff (arguments : Arguments) :
    (configure arguments).Ends before exchanges result after ↔
      exchanges = [] ∧ result = .ok .proceed ∧
        after = { before with contexts := { mode := configMode } :: before.contexts } := by
  simp only [configure, ends_bind_iff, ends_enter_iff, ends_pure_iff]
  grind

end Shell

end SwitchShell.Feature
