import SwitchShell.Proofs.Completion.Executable
import SwitchShell.Proofs.Store.Select
import SwitchShell.Proofs.Text.NaturalOrder

namespace SwitchShell

/-! The order in which a database lists its interfaces makes no difference.

All that a session learns of them are their names, and these it sorts.
-/

/-- The database answers the question for the names of the interfaces with the names
in these rows. -/
def Shows {σ : Type} (backend : Backend σ) (state : σ) (rows : List Row) : Prop :=
  ∃ result others,
    (backend [.select interfaceTable [] (some ["name"])] state).1 = .ok (result :: others) ∧
      result.rows.map (·.textAt? "name") = rows.map (·.textAt? "name")

variable {σ τ : Type} {backend left : Backend σ} {right : Backend τ} {state here : σ} {there : τ}
  {rows permuted : List Row} {kinds : List NameKind}

theorem Memory.shows_of_find? {memory : Memory}
    (found : Dictionary.find? interfaceTable memory.tables = some rows) :
    Shows Memory.transact memory rows := by
  have every : (rows.filterM fun row => holdsAll row []) = .ok rows := by
    rw [filterM_holdsAll (List.forall_mem_nil _), filter_meets_nil]
  refine ⟨{ rows := rows.map fun row => project row (some ["name"]) }, [], ?_, ?_⟩
  · rw [transact_one]
    simp only [Operation.table, found, executeOn, every]
    rfl
  · rw [List.map_map]
    exact List.map_congr_left fun row _ => textAt?_project List.mem_cons_self

namespace Query

theorem fst_answer_bind_of {α β : Type} (query : Query α) (look : α → Except Fault β) :
    (answer backend (query >>= fun value => ExceptT.mk (pure (look value))) state).1 =
      (answer backend query state).1 >>= look := by
  rw [answer_bind]
  rcases answer backend query state with ⟨_ | value, later⟩ <;> rfl

theorem fst_answer_bind_pure {α β : Type} (query : Query α) (look : α → β) :
    (answer backend (query >>= fun value => pure (look value)) state).1 =
      (answer backend query state).1.map look :=
  fst_answer_bind_of query fun value => .ok (look value)

theorem answer_interfaceNames (shows : Shows backend state rows) :
    (answer backend interfaceNames state).1 =
      .ok (Text.naturalSort (rows.filterMap (·.textAt? "name"))) := by
  obtain ⟨result, others, answered, named⟩ := shows
  have selected : (answer backend (select interfaceTable [] (some ["name"])) state).1 =
      .ok result.rows := by
    rw [select, fst_answer_bind_pure, answer_transact, answered]
    rfl
  have names : result.rows.filterMap (·.textAt? "name") = rows.filterMap (·.textAt? "name") := by
    rw [← Function.id_comp fun row : Row => row.textAt? "name", ← List.filterMap_map, named,
      List.filterMap_map]
  rw [interfaceNames, fst_answer_bind_pure, selected, ← names]
  rfl

theorem answer_names_eq (shows : Shows left here rows) (shows' : Shows right there permuted)
    (reordered : permuted.Perm rows) (once : kinds = [] ∨ kinds = [.interface]) :
    ∃ snapshot, (answer left (names kinds) here).1 = .ok snapshot ∧
      (answer right (names kinds) there).1 = .ok snapshot := by
  rcases once with rfl | rfl
  · exact ⟨{}, rfl, rfl⟩
  · have alone : names [.interface] = interfaceNames >>= fun interfaces => pure { interfaces } := rfl
    refine ⟨{ interfaces := Text.naturalSort (rows.filterMap (·.textAt? "name")) }, ?_, ?_⟩
    · rw [alone, fst_answer_bind_pure, answer_interfaceNames shows]
      rfl
    · rw [alone, fst_answer_bind_pure, answer_interfaceNames shows',
        Text.naturalSort_of_perm (reordered.filterMap _)]
      rfl

end Query

namespace Session

theorem fetchNames_eq (options : List OptionGroup) :
    fetchNames options = Query.names (Completion.nameKinds options) := by
  unfold fetchNames
  cases Completion.nameKinds options <;> rfl

theorem complete_eq (session : Session) (line : String) :
    session.complete line =
      let request := Completion.Request.parse line
      let position := Completion.Position.locate session.registry session.mode request.words
      Query.names position.nameKinds >>= fun names =>
        ExceptT.mk (pure (Completion.ofRequest session.registry session.mode names request position)) := by
  unfold complete
  extract_lets request position
  cases position.nameKinds <;> rfl

theorem nameKinds_position (position : Completion.Position) :
    position.nameKinds = [] ∨ position.nameKinds = [.interface] := by
  cases position with
  | command found => exact Completion.nameKinds_eq found.node.options
  | start | unknown => exact .inl rfl

/-- Whatever the order of the rows, the names of the interfaces are listed in natural
order, and what is bound and what is completed with them is the same. -/
theorem interface_order_invisible :
    (∀ (memory : Memory) (rows : List Row),
      Dictionary.find? interfaceTable memory.tables = some rows →
        Shows Memory.transact memory rows) ∧
    ∀ {σ τ : Type} (left : Backend σ) (right : Backend τ) (here : σ) (there : τ)
      (rows permuted : List Row),
      Shows left here rows → Shows right there permuted → permuted.Perm rows →
        (∃ listed, (Query.answer left Query.interfaceNames here).1 = .ok listed ∧
          (Query.answer right Query.interfaceNames there).1 = .ok listed ∧
          listed.Perm (rows.filterMap (·.textAt? "name")) ∧ listed.Pairwise Text.Precedes) ∧
        (∀ options, ∃ names, (Query.answer left (fetchNames options) here).1 = .ok names ∧
          (Query.answer right (fetchNames options) there).1 = .ok names) ∧
        (∀ options words,
          let bound := fetchNames options >>= fun names =>
            ExceptT.mk (pure (Binding.ofWords names options words))
          (Query.answer left bound here).1 = (Query.answer right bound there).1) ∧
        ∀ (session : Session) (line : String),
          (Query.answer left (session.complete line) here).1 =
            (Query.answer right (session.complete line) there).1 := by
  refine ⟨fun memory rows => Memory.shows_of_find?, ?_⟩
  intro σ τ left right here there rows permuted shows shows' reordered
  have fetched := fun options => fetchNames_eq options ▸
    Query.answer_names_eq shows shows' reordered (Completion.nameKinds_eq options)
  refine ⟨⟨_, Query.answer_interfaceNames shows, ?_, Text.naturalSort_perm _,
    Text.pairwise_naturalSort _⟩, fetched, fun options words => ?_, fun session line => ?_⟩
  · rw [Query.answer_interfaceNames shows', Text.naturalSort_of_perm (reordered.filterMap _)]
  · obtain ⟨names, asked, asked'⟩ := fetched options
    simp only [Query.fst_answer_bind_of, asked, asked']
  · obtain ⟨names, asked, asked'⟩ :=
      Query.answer_names_eq shows shows' reordered (nameKinds_position _)
    rw [complete_eq, Query.fst_answer_bind_of, Query.fst_answer_bind_of, asked, asked']

/-- Two ports that stand for one number, listed from the last to the first. -/
theorem ports_reordered :
    let port (name : String) : Row := [("name", .string name)]
    let rows := [port "uplink", port "10", port "2", port "+2"]
    let memory : Memory := { tables := [(interfaceTable, rows)] }
    let other : Memory := { tables := [(interfaceTable, rows.reverse)] }
    Shows Memory.transact memory rows ∧ Shows Memory.transact other rows.reverse ∧
      rows.reverse.Perm rows ∧
      (∃ listed, (Query.answer Memory.transact Query.interfaceNames memory).1 = .ok listed ∧
        (Query.answer Memory.transact Query.interfaceNames other).1 = .ok listed ∧
        listed.Perm ["uplink", "10", "2", "+2"] ∧ listed.Pairwise Text.Precedes) ∧
      ∀ (session : Session) (line : String),
        (Query.answer Memory.transact (session.complete line) memory).1 =
          (Query.answer Memory.transact (session.complete line) other).1 := by
  intro port rows memory other
  have shows : Shows Memory.transact memory rows := interface_order_invisible.1 memory rows rfl
  have shows' : Shows Memory.transact other rows.reverse :=
    interface_order_invisible.1 other rows.reverse rfl
  have reordered : rows.reverse.Perm rows := rows.reverse_perm
  obtain ⟨listed, _, _, completed⟩ := interface_order_invisible.2 Memory.transact Memory.transact
    memory other rows rows.reverse shows shows' reordered
  exact ⟨shows, shows', reordered, listed, completed⟩

end Session

end SwitchShell
