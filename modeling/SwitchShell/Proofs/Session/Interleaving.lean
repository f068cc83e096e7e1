import SwitchShell.Proofs.Feature.Effect

namespace SwitchShell

/-! Two programs that share a database, one transaction at a time.

Each request of a command has its effect at once: where it writes, or where it
finds that there is nothing to write.  This needs that nobody else writes what a
request is about between its question and its answer to it.
-/

/-- One of two programs that share a database. -/
inductive Side where
  | left
  | right
deriving DecidableEq, Repr

def Side.other : Side → Side
  | left => right
  | right => left

theorem Side.ne_iff_eq_other {side first : Side} : side ≠ first ↔ side = first.other := by
  cases side <;> cases first <;> decide

/-- A transaction of one side. -/
structure Step where
  side : Side
  exchange : Exchange

/-- The transactions of one side. -/
def part (side : Side) (trace : List Step) : List Exchange :=
  (trace.filter fun step => step.side = side).map Step.exchange

section Part

variable {side : Side} {step : Step} {rest : List Step}

theorem part_cons_self (own : step.side = side) :
    part side (step :: rest) = step.exchange :: part side rest := by
  simp [part, own]

theorem part_cons_of_ne (others : step.side ≠ side) : part side (step :: rest) = part side rest := by
  simp [part, others]

end Part

/-- The two sides take their transactions in this order, and no transaction fails. -/
structure Interleaved {α : Type} (program : Side → Program α) (memory : Memory)
    (trace : List Step) (after : Memory) : Prop where
  each : ∀ side, ∃ value, Program.Yields (program side) (part side trace) value
  plays : Plays Memory.transact memory (trace.map Step.exchange) after
  answered : ∀ step ∈ trace, step.exchange.Answered

namespace Feature.Request

variable {request other : Request} {requests left : List Request} {exchanges : List Exchange}
  {memory : Memory} {results : List OperationResult} {operation question : Operation}

def Target.WrittenIn (target : Target) (exchange : Exchange) : Prop :=
  ∃ operation ∈ exchange.operations, target.WrittenBy operation

/-- The transactions of a request if all of them are answered. -/
inductive Made (request : Request) : List Exchange → Prop where
  | plain {operation : Operation} {results : List OperationResult}
      (unasked : request.question? = none) (written : request.writes [] = some operation) :
      Made request [{ operations := [operation], answer := .ok results }]
  | skipped {question : Operation} {results : List OperationResult}
      (asked : request.question? = some question) (unwritten : request.writes results = none) :
      Made request [{ operations := [question], answer := .ok results }]
  | derived {question operation : Operation} {results results' : List OperationResult}
      (asked : request.question? = some question)
      (written : request.writes results = some operation) :
      Made request [{ operations := [question], answer := .ok results },
        { operations := [operation], answer := .ok results' }]

/-- The transactions of a command that makes these requests; one that makes none
may read. -/
inductive Performed : List Request → List Exchange → Prop where
  | nothing {exchanges : List Exchange} (reads : ∀ exchange ∈ exchanges, exchange.IsRead) :
      Performed [] exchanges
  | request {request : Request} {requests : List Request} {first exchanges : List Exchange}
      (made : Made request first) (others : Performed requests exchanges) :
      Performed (request :: requests) (first ++ exchanges)

theorem Performed.eq_nil (performed : Performed requests []) : requests = [] := by
  generalize none : ([] : List Exchange) = exchanges at performed
  cases performed with
  | nothing reads => rfl
  | request made others => cases made <;> contradiction

theorem made_of_yields {result : Except Fault Unit}
    (yields : Program.Yields request.query.run exchanges result)
    (answered : ∀ exchange ∈ exchanges, exchange.Answered) : Made request exchanges := by
  rcases Query.yields_bind_iff.mp yields with
    ⟨first, rest, results, rfl, asking, ending⟩ | ⟨fault, asking, _⟩
  · rcases finished_of_yields ending with ⟨unwritten, rfl, _⟩ | ⟨operation, answer, written, rfl, _⟩
    · rcases asked_of_yields asking with ⟨unasked, rfl, same⟩ | ⟨question, asked, rfl⟩
      · cases request <;> cases unasked <;> contradiction
      · exact .skipped asked unwritten
    · obtain ⟨results', same⟩ := answered { operations := [operation], answer } (by simp)
      cases same
      rcases asked_of_yields asking with ⟨unasked, rfl, same⟩ | ⟨question, asked, rfl⟩
      · cases same
        exact .plain unasked written
      · exact .derived asked written
  · rcases asked_of_yields asking with ⟨_, _, impossible⟩ | ⟨question, _, rfl⟩
    · contradiction
    · obtain ⟨results, impossible⟩ := answered _ List.mem_cons_self
      contradiction

theorem Batch.tail (batch : Batch (request :: requests)) : Batch requests := by
  rcases batch with ⟨global, settings⟩ | single
  · refine .inl ⟨fun other member => global other (List.mem_cons_of_mem _ member), ?_⟩
    cases requests with
    | nil => exact List.forall_mem_nil _
    | cons next requests => exact (List.forall_mem_cons.mp settings).2
  · exact .inr (by simp only [List.length_cons] at single; omega)

theorem Batch.eq_nil (batch : Batch (request :: requests)) (last : request.isSetting = false) :
    requests = [] := by
  rcases batch with ⟨_, settings⟩ | single
  · cases requests with
    | nil => rfl
    | cons next requests =>
        have setting := (List.forall_mem_cons.mp settings).1
        rw [last] at setting
        contradiction
  · exact List.eq_nil_of_length_eq_zero (Nat.le_zero.mp (Nat.le_of_succ_le_succ single))

theorem performed_of_yields {result : Except Fault Unit} (batch : Batch requests)
    (yields : Program.Yields (inTurn requests).run exchanges result)
    (answered : ∀ exchange ∈ exchanges, exchange.Answered) : Performed requests exchanges := by
  induction requests generalizing exchanges with
  | nil =>
      obtain ⟨rfl, _⟩ := Query.yields_pure_iff.mp yields
      exact .nothing (List.forall_mem_nil _)
  | cons request requests ih =>
      rcases Query.yields_bind_iff.mp yields with
        ⟨first, rest, _, rfl, asked, onward⟩ | ⟨fault, asked, _⟩
      · obtain ⟨own, others⟩ := List.forall_mem_append.mp answered
        exact .request (made_of_yields asked own) (ih batch.tail onward others)
      · have alone := batch.eq_nil (isSetting_of_failure asked answered)
        subst alone
        rw [← List.append_nil exchanges]
        exact .request (made_of_yields asked answered) (.nothing (List.forall_mem_nil _))

theorem plan_of_unasked (unasked : request.question? = none) :
    request.plan memory = request.writes [] := by
  simp only [plan, unasked]

theorem plan_of_asked (asked : request.question? = some question)
    (answered : (Memory.transact [question] memory).1 = .ok results) :
    request.plan memory = request.writes results := by
  simp only [plan, asked, answered]

theorem effect_of_plan (planned : request.plan memory = some operation) :
    effect memory request = (Memory.transact [operation] memory).2 := by
  simp only [effect, planned, carry]

theorem effect_of_skip (planned : request.plan memory = none) : effect memory request = memory := by
  simp only [effect, planned, carry]

end Feature.Request

namespace Interleaved

open Feature Request

variable {memory after : Memory} {side : Side} {step : Step} {rest trace : List Step}
  {requests : List Request}

/-- The other side does not write what this side writes next before it does. -/
def Untouched (side : Side) (trace : List Step) : Prop :=
  ∀ exchange ∈ (part side trace).head?, ∀ target : Target, target.WrittenIn exchange →
    ∀ step ∈ trace.takeWhile fun step => step.side ≠ side, ¬ target.WrittenIn step.exchange

/-- Between a read and what its side writes next, the other side does not write
the same. -/
def Undisturbed : List Step → Prop
  | [] => True
  | step :: rest => (step.exchange.IsRead → Untouched step.side rest) ∧ Undisturbed rest

/-- Of the settings that both sides write, each in another way, one side writes
all of its own first. -/
def SettingsInOrder (first : Side) (trace : List Step) : Prop :=
  trace.Pairwise fun earlier later => earlier.side ≠ first → later.side = first →
    ∀ key, (Target.entry (settingAt key)).WrittenIn earlier.exchange →
      (Target.entry (settingAt key)).WrittenIn later.exchange →
      earlier.exchange.operations = later.exchange.operations

/-- Where a side stands: between two requests, or before it writes what follows
from the answer to a question. -/
inductive Pending (memory : Memory) (side : Side) : List Request → List Step → Prop where
  | between {requests : List Request} {trace : List Step}
      (performed : Performed requests (part side trace)) : Pending memory side requests trace
  | midway {request : Request} {requests : List Request} {trace : List Step}
      {operation : Operation} {results : List OperationResult} {exchanges : List Exchange}
      (planned : request.plan memory = some operation)
      (next : part side trace = { operations := [operation], answer := .ok results } :: exchanges)
      (performed : Performed requests exchanges)
      (untouched : ∀ target, request.target? = some target →
        ∀ step ∈ trace.takeWhile fun step => step.side ≠ side, ¬ target.WrittenIn step.exchange) :
      Pending memory side (request :: requests) trace

/-- A step that has the effect of a request, and writes what that is about if it
writes anything. -/
structure Effects (memory later : Memory) (step : Step) (request : Request) : Prop where
  effect : later = Request.effect memory request
  target : later = memory ∨
    ∀ target, request.target? = some target → target.WrittenIn step.exchange
  setting : ∀ key value?, request = .setting key value? →
    step.exchange.operations = [(settingAt key).put value?]

theorem Effects.of_plan {operation : Operation} {request : Request}
    (planned : request.plan memory = some operation) (same : step.exchange.operations = [operation]) :
    Effects memory (Memory.transact step.exchange.operations memory).2 step request where
  effect := by rw [same, effect_of_plan planned]
  target := by
    obtain ⟨results, written⟩ := exists_writes planned
    exact .inr fun target about =>
      ⟨operation, same ▸ List.mem_singleton_self _, writtenBy_of_writes written about⟩
  setting := by
    rintro key value? rfl
    cases planned
    exact same

/-- A side that takes a step goes on with its requests or has made the next one. -/
theorem Pending.advance (sorted : memory.Sorted)
    (pending : Pending memory side requests (step :: rest)) (own : step.side = side)
    (answered : (Memory.transact step.exchange.operations memory).1 = step.exchange.answer)
    (undisturbed : Undisturbed (step :: rest)) :
    (Pending (Memory.transact step.exchange.operations memory).2 side requests rest ∧
      (Memory.transact step.exchange.operations memory).2 = memory) ∨
    ∃ request left, requests = request :: left ∧
      Pending (Memory.transact step.exchange.operations memory).2 side left rest ∧
      Effects memory (Memory.transact step.exchange.operations memory).2 step request := by
  obtain ⟨_, exchange⟩ := step
  subst own
  cases pending with
  | between performed =>
      rw [part_cons_self rfl] at performed
      generalize whole : exchange :: part _ rest = exchanges at performed
      cases performed with
      | nothing reads =>
          -- The side makes no more requests, but it may read.
          subst whole
          obtain ⟨first, others⟩ := List.forall_mem_cons.mp reads
          have kept := Memory.transact_isRead sorted.tables first
          exact .inl ⟨.between (.nothing others), kept⟩
      | request made others =>
          cases made with
          | plain unasked written =>
              obtain ⟨rfl, rfl⟩ := List.cons.inj whole
              exact .inr ⟨_, _, rfl, .between others,
                .of_plan ((plan_of_unasked unasked).trans written) rfl⟩
          | skipped asked unwritten =>
              obtain ⟨rfl, rfl⟩ := List.cons.inj whole
              have kept := Memory.transact_isRead sorted.tables
                (List.forall_mem_singleton.mpr (isRead_question asked))
              have planned := (plan_of_asked asked answered).trans unwritten
              refine .inr ⟨_, _, rfl, .between others, ?_, .inl kept, ?_⟩
              · exact kept.trans (effect_of_skip planned).symm
              · rintro key value? rfl
                contradiction
          | @derived question operation _ _ asked written =>
              obtain ⟨rfl, behind⟩ := List.cons.inj whole
              have reads : ∀ operation ∈ [question], operation.isRead = true :=
                List.forall_mem_singleton.mpr (isRead_question asked)
              have kept := Memory.transact_isRead sorted.tables reads
              have planned := (plan_of_asked asked answered).trans written
              refine .inl ⟨.midway (kept.symm ▸ planned) behind others ?_, kept⟩
              exact fun target about => undisturbed.1 reads _ (by rw [behind]; rfl) target
                ⟨_, List.mem_singleton_self _, writtenBy_of_writes written about⟩
  | midway planned next performed untouched =>
      rw [part_cons_self rfl] at next
      obtain ⟨rfl, rfl⟩ := List.cons.inj next
      exact .inr ⟨_, _, rfl, .between performed, .of_plan planned rfl⟩

/-- A side that waits stands where it stood. -/
theorem Pending.wait {later : Memory}
    (pending : Pending memory side requests (step :: rest)) (others : step.side ≠ side)
    (effects : later = memory ∨ ∃ request, Effects memory later step request) :
    Pending later side requests rest := by
  cases pending with
  | between performed =>
      rw [part_cons_of_ne others] at performed
      exact .between performed
  | midway planned next performed untouched =>
      rw [part_cons_of_ne others] at next
      simp only [List.takeWhile_cons, others, decide_true, ne_eq, not_false_eq_true, if_true,
        List.forall_mem_cons] at untouched
      refine .midway ?_ next performed fun target about => (untouched target about).2
      rcases effects with rfl | ⟨request, rfl, same | written, _⟩
      · exact planned
      · rw [same]
        exact planned
      · exact (plan_effect fun target about about' =>
          (untouched target about).1 (written target about')).trans planned

theorem Pending.eq_nil (pending : Pending memory side requests []) : requests = [] := by
  cases pending with
  | between performed => exact performed.eq_nil
  | midway planned next performed untouched => contradiction

/-- The requests of one side, of all that took effect. -/
def requestsOf (side : Side) (order : List (Step × Request)) : List Request :=
  (order.filter fun entry => entry.1.side = side).map Prod.snd

theorem mem_requestsOf_iff {side : Side} {request : Request} {order : List (Step × Request)} :
    request ∈ requestsOf side order ↔
      ∃ entry ∈ order, entry.1.side = side ∧ entry.2 = request := by
  simp only [requestsOf, List.mem_map, List.mem_filter, decide_eq_true_eq, and_assoc]

theorem requestsOf_cons_self {side : Side} {entry : Step × Request} {order : List (Step × Request)}
    (own : entry.1.side = side) :
    requestsOf side (entry :: order) = entry.2 :: requestsOf side order := by
  simp [requestsOf, own]

theorem requestsOf_cons_of_ne {side : Side} {entry : Step × Request}
    {order : List (Step × Request)} (others : entry.1.side ≠ side) :
    requestsOf side (entry :: order) = requestsOf side order := by
  simp [requestsOf, others]

/-- The requests of both sides in the order in which they take effect, each with
the step where it does. -/
structure Ordering (requests : Side → List Request) (memory : Memory) (trace : List Step)
    (after : Memory) (order : List (Step × Request)) : Prop where
  steps : (order.map Prod.fst).Sublist trace
  own : ∀ side, requestsOf side order = requests side
  setting : ∀ entry ∈ order, ∀ key value?, entry.2 = .setting key value? →
    entry.1.exchange.operations = [(settingAt key).put value?]
  effects : after = (order.map Prod.snd).foldl effect memory

/-- Two sides that are not disturbed have the effects of their requests, one
after the other. -/
theorem exists_ordering {requests : Side → List Request} (sorted : memory.Sorted)
    (plays : Plays Memory.transact memory (trace.map Step.exchange) after)
    (undisturbed : Undisturbed trace)
    (pending : ∀ side, Pending memory side (requests side) trace) :
    ∃ order, Ordering requests memory trace after order := by
  induction trace generalizing memory requests with
  | nil =>
      cases plays
      exact ⟨[], List.Sublist.refl _, fun side => (pending side).eq_nil.symm, by simp, rfl⟩
  | cons step rest ih =>
      cases plays with
      | cons answered others =>
          rcases (pending step.side).advance sorted rfl answered undisturbed with
            ⟨own, kept⟩ | ⟨request, left, made, own, effects⟩
          · -- The step was a question; the order is that of the rest.
            rw [kept] at others own
            have onward : ∀ side, Pending memory side (requests side) rest := by
              intro side
              by_cases taken : step.side = side
              · exact taken ▸ own
              · exact (pending side).wait taken (.inl rfl)
            obtain ⟨order, ordering⟩ := ih sorted others undisturbed.2 onward
            exact ⟨order, { ordering with steps := ordering.steps.cons step }⟩
          · -- The request that took effect comes first in the order.
            have onward : ∀ side, Pending (Memory.transact step.exchange.operations memory).2 side
                (if side = step.side then left else requests side) rest := by
              intro side
              split
              · rename_i taken
                exact taken ▸ own
              · rename_i waits
                exact (pending side).wait (Ne.symm waits) (.inr ⟨request, effects⟩)
            have sorted' : (Memory.transact step.exchange.operations memory).2.Sorted :=
              effects.effect ▸ sorted_effect sorted
            obtain ⟨order, ordering⟩ := ih sorted' others undisturbed.2 onward
            refine ⟨(step, request) :: order, ordering.steps.cons_cons step, fun side => ?_,
              List.forall_mem_cons.mpr ⟨effects.setting, ordering.setting⟩, ?_⟩
            · have others := ordering.own side
              by_cases taken : step.side = side
              · subst taken
                rw [if_pos rfl] at others
                rw [made, ← others]
                exact requestsOf_cons_self rfl
              · rw [if_neg (Ne.symm taken)] at others
                rw [← others]
                exact requestsOf_cons_of_ne taken
            · rw [ordering.effects, effects.effect]
              rfl

end Interleaved

end SwitchShell
