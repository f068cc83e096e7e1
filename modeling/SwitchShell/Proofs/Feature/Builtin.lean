import SwitchShell.Feature.Builtin
import SwitchShell.Proofs.Command.Lookup

namespace SwitchShell

/-- The node a command makes where none was before it. -/
def Command.leaf (command : Command) : Node :=
  Node.become command { word := command.path.getLast?.getD "", path := command.path }

namespace Feature

theorem built_inTurn (steps : List Registration) (registry : Registry)
    (each : ∀ step ∈ steps, ∀ registry : Registry, registry.Built → (step registry).2.Built)
    (built : registry.Built) : (inTurn steps registry).2.Built := by
  induction steps generalizing registry with
  | nil => exact built
  | cons step steps ih =>
      have first := each step List.mem_cons_self registry built
      unfold inTurn
      split
      · rename_i later registered
        rw [registered] at first
        exact ih _ (fun other member => each other (List.mem_cons_of_mem step member)) first
      · exact first

theorem builtin_built : builtin.Built := by
  have turn := fun (steps : List Registration) each registry => built_inTurn steps registry each
  refine turn _ ?_ _ .empty
  simp only [List.mem_cons, List.not_mem_nil, or_false, forall_eq_or_imp, forall_eq]
  refine ⟨turn _ ?_, fun _ built => .registerAll _ _ built, turn _ ?_, turn _ ?_, turn _ ?_⟩
  · simp only [List.mem_cons, List.not_mem_nil, or_false, forall_eq_or_imp, forall_eq]
    exact ⟨fun _ built => .registerAll _ _ built, fun _ built => .describe _ _ _ built,
      fun _ built => .registerAll _ _ built⟩
  all_goals
    simp only [List.mem_cons, List.not_mem_nil, or_false, forall_eq_or_imp, forall_eq]
    exact ⟨fun _ built => .register _ _ built, fun _ built => .register _ _ built,
      fun _ built => .register _ _ built⟩

def showCommands : List Command :=
  Shell.globalCommands.drop 2 ++
    [Debug.showCommand, Vlan.showCommand, Interface.showCommand, Lldp.showCommand]

/-- The commands of the global mode. -/
def globalCommands : List Command :=
  showCommands ++ Shell.globalCommands.take 2 ++ [Debug.setCommand]

theorem builtin_commands_root :
    builtin.commands rootMode = (Shell.rootCommands ++ globalCommands).map Command.leaf := rfl

theorem builtin_commands_config :
    builtin.commands configMode =
      ([Vlan.configureCommand, Interface.configureCommand, Lldp.configureCommand] ++
        globalCommands).map Command.leaf := rfl

theorem builtin_commands_vlan :
    builtin.commands vlanMode = (Vlan.shutdownCommand :: globalCommands).map Command.leaf := rfl

theorem builtin_commands_interface :
    builtin.commands interfaceMode =
      ([Interface.shutdownCommand, Lldp.interfaceCommand] ++ globalCommands).map
        Command.leaf := rfl

end Feature

end SwitchShell
