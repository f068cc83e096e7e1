import SwitchShell.Proofs.Feature.Directions
import SwitchShell.Proofs.Session.Settings

namespace SwitchShell.Session

open Feature Lldp

/-- What an `lldp` line asks for: the words after the name, and whether `no` is in front. -/
structure Order where
  negated : Bool
  words : List String

variable {session : Session} {memory : Memory} {line word : String} {words lines : List String}
  {negated before middle after : Bool} {order : Order} {orders : List Order} {way : Way}
  {above below : List Row} {row : Row} {object : Value}

/-- The last order that names the way decides on it; without one it is as before. -/
structure Decides (way : Way) (orders : List Order) (before after : Bool) : Prop where
  last : ∀ earlier order later, orders = earlier ++ order :: later → Mentions order.words way →
    (∀ other ∈ later, ¬ Mentions other.words way) → after = !order.negated
  kept : (∀ order ∈ orders, ¬ Mentions order.words way) → after = before

theorem decides_nil (way : Way) (before : Bool) : Decides way [] before before where
  last _ _ _ split := by simp at split
  kept _ := rfl

theorem decides_singleton (named : Mentions order.words way → after = !order.negated)
    (silent : ¬ Mentions order.words way → after = before) : Decides way [order] before after where
  last earlier own later split names _ := by
    obtain ⟨rfl, same⟩ | ⟨_, impossible⟩ := List.singleton_eq_append_iff.mp split
    · cases same
      exact named names
    · contradiction
  kept absent := silent (absent order List.mem_cons_self)

theorem Decides.cons (first : Decides way [order] before middle)
    (others : Decides way orders middle after) : Decides way (order :: orders) before after where
  last earlier own later split names silent := by
    rcases List.cons_eq_append_iff.mp split with ⟨rfl, same⟩ | ⟨rest, rfl, same⟩
    · -- nothing after the first order names the way again
      obtain ⟨rfl, rfl⟩ := List.cons.inj same
      exact (others.kept silent).trans (first.last [] own [] rfl names (List.forall_mem_nil _))
    · exact others.last rest own later same names silent
  kept silent := by
    obtain ⟨own, rest⟩ := List.forall_mem_cons.mp silent
    exact (others.kept rest).trans (first.kept (List.forall_mem_singleton.mpr own))

/-- A line that does not fail runs the command, with the ways that its words name. -/
theorem Orders.exists_arguments (orders : Orders negated words line)
    (builtin : session.registry = Feature.builtin) (mode : session.mode = interfaceMode)
    (fine : ¬ Failed (Program.run Memory.transact (session.dispatch line) memory).1.1) :
    ∃ arguments,
      session.prepare line = .done (.ok { handler := configureInterface, arguments }) ∧
        arguments.negated = negated ∧
        ∀ way, arguments.has 0 (Way.slot way) = true ↔ Mentions words way := by
  obtain ⟨word, begins, prepared⟩ := @prepare_eq_prepareWords session _ _ _ orders
  have looked : session.registry.lookup session.mode (word :: words) =
      .ok ⟨interfaceCommand.leaf, 1⟩ := by
    rw [builtin, mode]
    exact LldpCommand.interface.lookup begins words
  rw [prepareWords_eq looked rfl rfl] at prepared
  cases bound : bind ⟨interfaceCommand.leaf, 1⟩ (word :: words) negated {} with
  | error fault =>
      have told := faultIn_bind (Binding.told_ofWords {} _ (by decide)) rfl rfl fault bound
      rw [bound] at prepared
      exact absurd (failed_of_prepare prepared told) fine
  | ok arguments =>
      obtain ⟨opened, _, _, same⟩ := bind_eq_ok_iff.mp bound
      rw [bound] at prepared
      exact ⟨arguments, prepared, same, fun way => has_iff_mentions opened⟩

/-- One line changes the ways that its words name, and nothing else. -/
theorem Orders.run_directions (read : Orders order.negated order.words line)
    (builtin : session.registry = Feature.builtin) (mode : session.mode = interfaceMode)
    (selected : session.contexts.object? interfaceMode = some object)
    (present : memory.rows interfaceTable = above ++ row :: below)
    (alone : Memory.Alone [Condition.named object.text] above row below)
    (fine : ¬ Failed (Program.run Memory.transact (session.dispatch line) memory).1.1) :
    ∃ after later,
      Program.run Memory.transact (session.dispatch line) memory = (({}, session), after) ∧
      Memory.Replaces interfaceTable (above ++ later :: below) memory after ∧
      Redirects row later ∧
      ∀ way, Decides way [order] (way.of (directionOf row)) (way.of (directionOf later)) := by
  obtain ⟨arguments, prepared, negated, mentions⟩ := read.exists_arguments builtin mode fine
  obtain ⟨after, later, ran, replaced, redirects, direction⟩ :=
    @exists_run_configureInterface { contexts := session.contexts, debug := session.debug }
      _ _ _ _ _ selected present alone arguments
  refine ⟨after, later, run_of_handled prepared ran, replaced, redirects, fun way => ?_⟩
  rw [direction, of_after, negated]
  refine decides_singleton (fun named => if_pos ((mentions way).mpr named)) fun silent => if_neg ?_
  exact fun present => silent ((mentions way).mp present)

/-- Lines in the mode of an interface, of which none fails, change the directions of the
row that has its name, and nothing else.  In each direction the last line that names it
decides; if none does, the direction stays as it was read from the text that was stored. -/
theorem directions_of_lines (builtin : session.registry = Feature.builtin)
    (mode : session.mode = interfaceMode)
    (selected : session.contexts.object? interfaceMode = some object)
    (read : List.Forall₂ (fun order line => Orders order.negated order.words line) orders lines)
    (present : memory.rows interfaceTable = above ++ row :: below)
    (named : row.textAt? "name" = some object.text)
    (others : ∀ other ∈ above ++ below, other.textAt? "name" ≠ some object.text)
    (fine : ∀ dispatch ∈ (Program.run Memory.transact (session.dispatchAll lines) memory).1.1,
      ¬ Failed dispatch) :
    ∃ after later,
      Program.run Memory.transact (session.dispatchAll lines) memory =
        ((List.replicate lines.length {}, session), after) ∧
      Memory.Replaces interfaceTable (above ++ later :: below) memory after ∧
      Redirects row later ∧
      ∀ way, Decides way orders (way.of (directionOf row)) (way.of (directionOf later)) := by
  induction read generalizing memory row with
  | nil =>
      exact ⟨memory, row, rfl, present ▸ .refl memory _, redirects_refl row,
        fun way => decides_nil way _⟩
  | @cons order line orders lines first _ ih =>
      rw [run_dispatchAll_cons] at fine ⊢
      obtain ⟨fineFirst, fineOthers⟩ := List.forall_mem_cons.mp fine
      obtain ⟨middle, changed, ran, replaced, redirects, decides⟩ :=
        first.run_directions builtin mode selected present (Memory.alone_named named others) fineFirst
      rw [ran] at fineOthers ⊢
      -- the first line leaves the name, so that the others find the row again
      have named' : changed.textAt? "name" = some object.text := by
        rw [Row.textAt?, redirects.columns "name" (by decide)]
        exact named
      obtain ⟨after, later, ranOthers, replaced', redirects', decides'⟩ :=
        ih replaced.rows named' fineOthers
      refine ⟨after, later, ?_, replaced.trans replaced', redirects.trans redirects',
        fun way => (decides way).cons (decides' way)⟩
      simp only [ranOthers]
      rfl

/-- Three lines about an interface with a text of its own. -/
theorem last_lines_decide :
    let session := inside (interfaceStack "1")
    let row : Row := [("name", .string "1"),
      ("other_config", Row.encodeMap [("lldp_enable_dir", "only tx"), ("mtu", "9000")])]
    let other : Row := [("name", .string "2")]
    let memory : Memory := { tables := [(interfaceTable, [other, row])] }
    let orders : List Order := [⟨false, ["trans", "r"]⟩, ⟨true, ["transmission"]⟩, ⟨true, ["t"]⟩]
    let lines := ["lldp trans r", "no ll transmission", " no lldp t"]
    session.registry = Feature.builtin ∧ session.mode = interfaceMode ∧
      List.Forall₂ (fun order line => Orders order.negated order.words line) orders lines ∧
      ∃ after later,
        Program.run Memory.transact (session.dispatchAll lines) memory =
          ((List.replicate 3 {}, session), after) ∧
        Memory.Replaces interfaceTable [other, later] memory after ∧ Redirects row later ∧
        directionOf row = { receive := false, transmit := true } ∧
        directionOf later = { receive := true, transmit := false } := by
  intro session row other memory orders lines
  have read : List.Forall₂ (fun order line => Orders order.negated order.words line) orders lines :=
    .cons ⟨"lldp", by decide, by decide⟩ (.cons ⟨"ll", by decide, by decide⟩
      (.cons ⟨"lldp", by decide, by decide⟩ .nil))
  have shown : (Program.run Memory.transact (session.dispatchAll lines) memory).1.1 =
      List.replicate 3 {} := by decide +kernel
  have fine : ∀ dispatch ∈ (Program.run Memory.transact (session.dispatchAll lines) memory).1.1,
      ¬ Failed dispatch := by
    intro dispatch member
    rw [shown] at member
    cases List.eq_of_mem_replicate member
    rintro ⟨_, ⟨⟩⟩
  obtain ⟨after, later, ran, replaced, redirects, decides⟩ :=
    @directions_of_lines session memory lines orders [other] [] row (.word "1") rfl rfl rfl read rfl
      rfl (by decide) fine
  have silent : ∀ order ∈ orders.tail, ¬ Mentions order.words .reception := by
    unfold Mentions
    decide
  have receive := (decides .reception).last [] _ _ rfl ⟨"r", by decide⟩ silent
  have transmit := (decides .transmission).last [_, _] _ [] rfl ⟨"t", by decide⟩ (List.forall_mem_nil _)
  exact ⟨rfl, rfl, read, after, later, ran, replaced, redirects, rfl,
    congrArg₂ Direction.mk receive transmit⟩

end SwitchShell.Session
