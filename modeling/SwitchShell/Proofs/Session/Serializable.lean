import SwitchShell.Proofs.Session.Interleaving
import SwitchShell.Proofs.Session.Requests

namespace SwitchShell

namespace Feature.Request

variable {request other : Request} {requests : List Request} {memory : Memory}

/-- The two requests may be made in either order. -/
def Swaps (request other : Request) : Prop :=
  ∀ memory : Memory, memory.Sorted →
    effect (effect memory other) request = effect (effect memory request) other

theorem sorted_foldl_effect (sorted : memory.Sorted) : (requests.foldl effect memory).Sorted := by
  induction requests generalizing memory with
  | nil => exact sorted
  | cons request requests ih => exact ih (sorted_effect sorted)

theorem foldl_effect_of_swaps (sorted : memory.Sorted)
    (swaps : ∀ other ∈ requests, Swaps other request) :
    requests.foldl effect (effect memory request) = effect (requests.foldl effect memory) request := by
  induction requests generalizing memory with
  | nil => rfl
  | cons other requests ih =>
      obtain ⟨first, rest⟩ := List.forall_mem_cons.mp swaps
      rw [List.foldl_cons, first memory sorted]
      exact ih (sorted_effect sorted) rest

theorem eq_of_target (global : request.isGlobal = true) (same : request.target? = other.target?) :
    request = other ∨
      ∃ key value? value?', request = setting key value? ∧ other = setting key value?' := by
  cases request with
  | setting key value? =>
      cases other with
      | setting key' value?' =>
          cases same
          exact .inr ⟨key, value?, value?', rfl, rfl⟩
      | clear counter => simp [target?, settingAt, counterAt] at same
      | direct _ _ | administer _ _ | create _ | switch _ _ => cases same
  | clear counter =>
      cases other with
      | clear counter' =>
          cases same
          exact .inl rfl
      | setting key value? => simp [target?, settingAt, counterAt] at same
      | direct _ _ | administer _ _ | create _ | switch _ _ => cases same
  | direct _ _ | administer _ _ | create _ | switch _ _ => contradiction

theorem effect_setting {key : String} {value? : Option String} :
    effect memory (setting key value?) =
      (Memory.transact [(settingAt key).put value?] memory).2 := rfl

/-- Requests of which one is global may change places, unless they set one thing
to two values. -/
theorem swaps_of_isGlobal (global : request.isGlobal = true ∨ other.isGlobal = true)
    (agree : ∀ key value? value?', request = setting key value? → other = setting key value?' →
      (settingAt key).put value? = (settingAt key).put value?') : Swaps request other := by
  intro memory sorted
  by_cases same : request.target? = other.target?
  · have either : request = other ∨
        ∃ key value? value?', request = setting key value? ∧ other = setting key value?' := by
      rcases global with own | others
      · exact eq_of_target own same
      · rcases eq_of_target others same.symm with rfl | ⟨key, value?, value?', rfl, rfl⟩
        · exact .inl rfl
        · exact .inr ⟨key, value?', value?, rfl, rfl⟩
    rcases either with rfl | ⟨key, value?, value?', rfl, rfl⟩
    · rfl
    · simp only [effect_setting, agree key value? value?' rfl rfl]
  · rcases global with own | others
    · exact effect_comm sorted own same
    · exact (effect_comm sorted others (Ne.symm same)).symm

end Feature.Request

namespace Interleaved

open Feature Request

variable {memory after : Memory} {first : Side} {trace : List Step}
  {requests : Side → List Request} {order : List (Step × Request)}

/-- Requests that change places where they must can be made side after side. -/
theorem foldl_effect_of_order (sorted : memory.Sorted)
    (swaps : order.Pairwise fun earlier later => earlier.1.side ≠ first → later.1.side = first →
      Swaps later.2 earlier.2) :
    (order.map Prod.snd).foldl effect memory =
      (requestsOf first.other order).foldl effect
        ((requestsOf first order).foldl effect memory) := by
  induction order generalizing memory with
  | nil => rfl
  | cons entry order ih =>
      obtain ⟨head, rest⟩ := List.pairwise_cons.mp swaps
      rw [List.map_cons, List.foldl_cons, ih (sorted_effect sorted) rest]
      by_cases own : entry.1.side = first
      · have others : entry.1.side ≠ first.other := fun same =>
          Side.ne_iff_eq_other.mpr same own
        rw [requestsOf_cons_self own, requestsOf_cons_of_ne others]
        rfl
      · rw [requestsOf_cons_of_ne own, requestsOf_cons_self (Side.ne_iff_eq_other.mp own),
          List.foldl_cons]
        -- The first side comes before the request of the other one.
        rw [foldl_effect_of_swaps sorted]
        intro request member
        obtain ⟨later, inside, taken, rfl⟩ := mem_requestsOf_iff.mp member
        exact head later inside own taken

/-- If one side makes global requests only, the settings tell which side is first. -/
theorem swaps_of_settings {side : Side} (ordering : Ordering requests memory trace after order)
    (global : ∀ request ∈ requests side, request.isGlobal = true)
    (ordered : SettingsInOrder first trace) :
    order.Pairwise fun earlier later => earlier.1.side ≠ first → later.1.side = first →
      Swaps later.2 earlier.2 := by
  have ofSide : ∀ entry ∈ order, entry.1.side = side → entry.2.isGlobal = true :=
    fun entry member own => global _ (ordering.own side ▸ mem_requestsOf_iff.mpr
      ⟨entry, member, own, rfl⟩)
  have steps := List.pairwise_map.mp (ordered.sublist ordering.steps)
  refine steps.imp_of_mem fun {earlier later} member member' inOrder others own => ?_
  refine swaps_of_isGlobal ?_ fun key value? value?' sets sets' => ?_
  · by_cases taken : first = side
    · exact .inl (ofSide later member' (own.trans taken))
    · have both := Side.ne_iff_eq_other.mp (Ne.symm taken)
      exact .inr (ofSide earlier member ((Side.ne_iff_eq_other.mp others).trans both.symm))
  · have writes := ordering.setting later member' key value? sets
    have writes' := ordering.setting earlier member key value?' sets'
    have same := inOrder others own key ⟨_, writes' ▸ List.mem_singleton_self _, value?', rfl⟩
      ⟨_, writes ▸ List.mem_singleton_self _, value?, rfl⟩
    rw [writes, writes'] at same
    exact (List.singleton_inj.mp same).symm

/-- Where each side makes one request at most, the first one to take effect tells
which side is first. -/
theorem swaps_of_length (single : ∀ side, (requestsOf side order).length ≤ 1) :
    ∃ first, order.Pairwise fun earlier later => earlier.1.side ≠ first → later.1.side = first →
      Swaps later.2 earlier.2 := by
  cases order with
  | nil => exact ⟨.left, .nil⟩
  | cons entry order =>
      have none : ∀ later ∈ order, later.1.side ≠ entry.1.side := by
        intro later member own
        have short := single entry.1.side
        rw [requestsOf_cons_self rfl, List.length_cons] at short
        have empty := List.eq_nil_of_length_eq_zero (Nat.le_zero.mp (Nat.le_of_succ_le_succ short))
        exact List.not_mem_nil (empty ▸ mem_requestsOf_iff.mpr ⟨later, member, own, rfl⟩)
      refine ⟨entry.1.side, List.pairwise_cons.mpr ⟨fun later member others => ?_, ?_⟩⟩
      · exact absurd rfl others
      · exact List.pairwise_of_forall_mem_list fun earlier _ later member _ own =>
          absurd own (none later member)

theorem exists_first (batch : ∀ side, Batch (requests side))
    (ordering : Ordering requests memory trace after order)
    (ordered : ∃ first, SettingsInOrder first trace) :
    ∃ first, order.Pairwise fun earlier later => earlier.1.side ≠ first → later.1.side = first →
      Swaps later.2 earlier.2 := by
  by_cases global : ∃ side, ∀ request ∈ requests side, request.isGlobal = true
  · obtain ⟨side, global⟩ := global
    obtain ⟨first, ordered⟩ := ordered
    exact ⟨first, swaps_of_settings ordering global ordered⟩
  · refine swaps_of_length fun side => ?_
    rw [ordering.own side]
    exact (batch side).resolve_left fun own => global ⟨side, own.1⟩

end Interleaved

/-- What a program does to a database: it makes requests, if it is let to do so
in one go or in steps. -/
structure Makes {α : Type} (program : Program α) (requests : List Feature.Request) : Prop where
  batch : Feature.Request.Batch requests
  performed : ∀ exchanges value, Program.Yields program exchanges value →
    (∀ exchange ∈ exchanges, exchange.Answered) → Feature.Request.Performed requests exchanges
  ran : ∀ memory : Memory, memory.Sorted → (Program.run Memory.transact program memory).2 =
    requests.foldl Feature.Request.effect memory

/-- The database after one program and then the other. -/
def serially {α : Type} (program : Side → Program α) (first : Side) (memory : Memory) : Memory :=
  (Program.run Memory.transact (program first.other)
    (Program.run Memory.transact (program first) memory).2).2

theorem Interleaved.eq_serially {α : Type} {program : Side → Program α}
    {requests : Side → List Feature.Request} {memory after : Memory} {trace : List Step}
    (makes : ∀ side, Makes (program side) (requests side)) (sorted : memory.Sorted)
    (interleaved : Interleaved program memory trace after) (undisturbed : Undisturbed trace)
    (ordered : ∃ first, SettingsInOrder first trace) :
    ∃ first, after = serially program first memory := by
  have answered : ∀ side, ∀ exchange ∈ part side trace, exchange.Answered := by
    intro side exchange member
    obtain ⟨step, taken, rfl⟩ := List.mem_map.mp member
    exact interleaved.answered step (List.mem_of_mem_filter taken)
  have pending : ∀ side, Pending memory side (requests side) trace := by
    intro side
    obtain ⟨value, yields⟩ := interleaved.each side
    exact .between ((makes side).performed _ _ yields (answered side))
  obtain ⟨order, ordering⟩ := exists_ordering sorted interleaved.plays undisturbed pending
  obtain ⟨first, swaps⟩ := exists_first (fun side => (makes side).batch) ordering ordered
  refine ⟨first, ?_⟩
  have sorted' := @Feature.Request.sorted_foldl_effect (requests first) memory sorted
  rw [ordering.effects, foldl_effect_of_order sorted swaps, ordering.own, ordering.own, serially,
    (makes first).ran memory sorted, (makes first.other).ran _ sorted']

namespace Session

open Feature Request

variable {session : Session} {line : String}

theorem makes_of_performs {requests : List Request} (batch : Batch requests)
    (performs : session.Performs line requests) : Makes (session.dispatch line) requests where
  batch := batch
  performed := by
    rintro exchanges ⟨dispatch, later⟩ yields answered
    obtain ⟨result, made, _⟩ := performs _ _ _ yields
    exact performed_of_yields batch made answered
  ran := by
    intro memory sorted
    obtain ⟨exchanges, yields, plays⟩ :=
      Program.exists_plays_run Memory.transact (session.dispatch line) memory
    obtain ⟨result, made, _⟩ := performs _ _ _ yields
    have ran := Program.run_eq_of_plays made plays
    rw [← snd_answer_inTurn sorted batch]
    exact (congrArg Prod.snd ran).symm

theorem makes_of_onlyReads {α : Type} {program : Program α} (reads : program.OnlyReads) :
    Makes program [] where
  batch := .inr (Nat.zero_le 1)
  performed := fun exchanges value yields _ => .nothing (reads.isRead yields)
  ran := by
    intro memory sorted
    obtain ⟨exchanges, yields, plays⟩ := Program.exists_plays_run Memory.transact program memory
    exact Memory.eq_of_plays_isRead sorted.tables plays (reads.isRead yields)

theorem exists_makes (builtin : session.registry = Feature.builtin) (line : String) :
    ∃ requests, Makes (session.dispatch line) requests ∧ ∀ request ∈ requests, request.Valid := by
  cases asks_of_builtin builtin line with
  | reads only => exact ⟨[], makes_of_onlyReads only, List.forall_mem_nil _⟩
  | one performs valid =>
      exact ⟨_, makes_of_performs (.inr (Nat.le_refl _)) performs,
        List.forall_mem_singleton.mpr valid⟩
  | lldp prepared performs valid =>
      exact ⟨_, makes_of_performs batch_requests performs, valid⟩

/-- Each side runs a line of its own in a session of its own. -/
def dispatches (sessions : Side → Session) (lines : Side → String) (side : Side) :
    Program (Dispatch × Session) :=
  (sessions side).dispatch (lines side)

/-- The transactions of two sessions come to what one line after the other would
come to, if nobody writes between a read and a write what the write is about, and
the settings that both lines write are written by the same side first. -/
theorem serializable {sessions : Side → Session} {lines : Side → String} {memory after : Memory}
    {trace : List Step} (builtin : ∀ side, (sessions side).registry = Feature.builtin)
    (sorted : memory.Sorted)
    (interleaved : Interleaved (dispatches sessions lines) memory trace after)
    (undisturbed : Interleaved.Undisturbed trace)
    (ordered : ∃ first, Interleaved.SettingsInOrder first trace) :
    ∃ first, after = serially (dispatches sessions lines) first memory := by
  choose requests makes _ using fun side => exists_makes (builtin side) (lines side)
  exact interleaved.eq_serially makes sorted undisturbed ordered

/-- Two sessions in configuration mode. -/
def configuring (lines : Side → String) : Side → Program (Dispatch × Session) :=
  dispatches
    (fun _ =>
      { registry := Feature.builtin, contexts := [{ mode := configMode }], hostname := "switch" })
    lines

/-- The database after transactions on the initial one. -/
def replay (trace : List Step) : Memory :=
  trace.foldl (fun memory step => (Memory.transact step.exchange.operations memory).2)
    Memory.initial

/-- A database that was not asked yet to clear anything. -/
def statusAsked : Exchange where
  operations := [(counterAt Lldp.countersKey).ask]
  answer := .ok [{ rows := [[("status", Row.encodeMap [])]] }]

def counterWritten : Exchange where
  operations := [(counterAt Lldp.countersKey).put (some "1")]
  answer := .ok [{ count := some 1 }]

/-- A database that does not know the VLAN yet. -/
def vlanAsked : Exchange where
  operations := [.select vlanTable [Vlan.identified 10] (some ["id"])]
  answer := .ok [{ rows := [] }]

def vlanWritten : Exchange where
  operations := [.insert vlanTable (Vlan.newRow 10)]
  answer := .ok [{ uuid := some (Memory.rowIdentifier 1) }]

def clearAndVlan : Side → String
  | .left => "lldp clear counters"
  | .right => "vlan 10"

/-- Each side reads before the other one writes. -/
def clearAndVlanTrace : List Step :=
  [⟨.left, statusAsked⟩, ⟨.right, vlanAsked⟩, ⟨.left, counterWritten⟩, ⟨.right, vlanWritten⟩]

theorem clearAndVlan_serializable :
    let after := replay clearAndVlanTrace
    Memory.initial.Sorted ∧
      Interleaved (configuring clearAndVlan) Memory.initial clearAndVlanTrace after ∧
      Interleaved.Undisturbed clearAndVlanTrace ∧
      (∃ first, Interleaved.SettingsInOrder first clearAndVlanTrace) ∧
      ∃ first, after = serially (configuring clearAndVlan) first Memory.initial := by
  intro after
  have sorted : Memory.initial.Sorted := Memory.sorted_withHostname "switch"
  have interleaved : Interleaved (configuring clearAndVlan) Memory.initial clearAndVlanTrace after :=
    { each := by
        intro side
        cases side <;> exact ⟨_, .transact _ (.transact _ (.done _))⟩
      plays := .cons rfl (.cons rfl (.cons rfl (.cons rfl (.nil _))))
      answered := by
        simp [clearAndVlanTrace, Exchange.Answered, statusAsked, vlanAsked, counterWritten,
          vlanWritten] }
  have readsOnly : ∀ target : Target, ¬ target.WrittenIn vlanAsked := by
    intro target
    cases target <;> simp [Target.WrittenIn, Target.WrittenBy, vlanAsked, Entry.put]
  have apart : ∀ target : Target, target.WrittenIn vlanWritten → ¬ target.WrittenIn counterWritten := by
    intro target
    cases target <;>
      simp [Target.WrittenIn, Target.WrittenBy, vlanWritten, counterWritten, Entry.put]
  have undisturbed : Interleaved.Undisturbed clearAndVlanTrace := by
    simpa [Interleaved.Undisturbed, Interleaved.Untouched, clearAndVlanTrace, part, readsOnly]
      using fun _ => apart
  have ordered : Interleaved.SettingsInOrder .left clearAndVlanTrace := by
    simp [Interleaved.SettingsInOrder, clearAndVlanTrace, readsOnly]
  exact ⟨sorted, interleaved, undisturbed, ⟨_, ordered⟩,
    serializable (fun _ => rfl) sorted interleaved undisturbed ⟨_, ordered⟩⟩

/-- The transactions may come in this order, and then leave an entry unlike both
orders of the lines. -/
def Diverges (lines : Side → String) (trace : List Step) : Prop :=
  Interleaved (configuring lines) Memory.initial trace (replay trace) ∧
    ∀ first, ∃ entry : Entry,
      entry.read (replay trace) ≠ entry.read (serially (configuring lines) first Memory.initial)

def clearTwice : Side → String := fun _ => "lldp clear counters"

def clearTwiceTrace : List Step :=
  [⟨.left, statusAsked⟩, ⟨.right, statusAsked⟩, ⟨.left, counterWritten⟩, ⟨.right, counterWritten⟩]

/-- Both sides raise the counter that they found; one of the requests is lost. -/
theorem clear_lost : Diverges clearTwice clearTwiceTrace := by
  refine ⟨⟨fun side => ?_, .cons rfl (.cons rfl (.cons rfl (.cons rfl (.nil _)))), ?_⟩,
    fun first => ⟨counterAt Lldp.countersKey, ?_⟩⟩
  · cases side <;> exact ⟨_, .transact _ (.transact _ (.done _))⟩
  · simp [clearTwiceTrace, Exchange.Answered, statusAsked, counterWritten]
  · have once : (counterAt Lldp.countersKey).read (replay clearTwiceTrace) = some "1" := rfl
    have twice : (counterAt Lldp.countersKey).read
        (serially (configuring clearTwice) first Memory.initial) = some "2" := by
      cases first <;> rfl
    rw [once, twice]
    decide

def setAndUnset : Side → String
  | .left => "lldp enable holdtime 5"
  | .right => "no lldp enable holdtime 5"

def settingWritten (key : String) (value? : Option String) : Exchange where
  operations := [(settingAt key).put value?]
  answer := .ok [{ count := some 1 }]

def setAndUnsetTrace : List Step :=
  [⟨.left, settingWritten Lldp.enableKey (some "true")⟩,
    ⟨.right, settingWritten Lldp.enableKey (some "false")⟩,
    ⟨.right, settingWritten Lldp.holdTimeKey none⟩,
    ⟨.left, settingWritten Lldp.holdTimeKey (some "5")⟩]

/-- Each side has the last word on one of two settings. -/
theorem settings_mixed : Diverges setAndUnset setAndUnsetTrace := by
  refine ⟨⟨fun side => ?_, .cons rfl (.cons rfl (.cons rfl (.cons rfl (.nil _)))), ?_⟩,
    fun first => ?_⟩
  · cases side <;> exact ⟨_, .transact _ (.transact _ (.done _))⟩
  · simp [setAndUnsetTrace, Exchange.Answered, settingWritten]
  · have disabled : (settingAt Lldp.enableKey).read (replay setAndUnsetTrace) = some "false" := rfl
    have held : (settingAt Lldp.holdTimeKey).read (replay setAndUnsetTrace) = some "5" := rfl
    cases first with
    | left =>
        have unset : (settingAt Lldp.holdTimeKey).read
            (serially (configuring setAndUnset) .left Memory.initial) = none := rfl
        exact ⟨settingAt Lldp.holdTimeKey, by rw [held, unset]; decide⟩
    | right =>
        have enabled : (settingAt Lldp.enableKey).read
            (serially (configuring setAndUnset) .right Memory.initial) = some "true" := rfl
        exact ⟨settingAt Lldp.enableKey, by rw [disabled, enabled]; decide⟩

theorem lines_diverge :
    Diverges clearTwice clearTwiceTrace ∧ Diverges setAndUnset setAndUnsetTrace :=
  ⟨clear_lost, settings_mixed⟩

end Session

end SwitchShell
