import SwitchShell.Editor.Console
import SwitchShell.Proofs.Completion.Stem
import SwitchShell.Proofs.Editor.LineBuffer
import SwitchShell.Proofs.Session.Names

namespace SwitchShell

namespace Completion

variable {completion : Completion} {items : List HelpItem} {word : List Char}

/-- What may come of a word in progress and the items that may take its place: the
characters that are added to it, and a listing. -/
inductive Extends (word : List Char) (items : List HelpItem) :
    List Char → Option (List String) → Prop
  /-- The only item takes the place of the word, and the next one can begin. -/
  | whole {item : HelpItem} {rest : List Char} (only : items = [item])
      (typed : item.literal = true) (text : item.text.toList = word ++ rest) :
      Extends word items (rest ++ [' ']) none
  /-- The word goes on as far as the items agree. -/
  | further {rest : List Char} (several : 1 < items.length)
      (typed : ∀ item ∈ items, item.literal = true)
      (longest : LongestStart (word ++ rest) (items.map HelpItem.text)) (onward : rest ≠ []) :
      Extends word items rest none
  /-- The items agree in nothing but the word. -/
  | parted (several : 1 < items.length) (typed : ∀ item ∈ items, item.literal = true)
      (longest : LongestStart word (items.map HelpItem.text)) :
      Extends word items [] (some (Output.help items).render)
  /-- Some item cannot be typed. -/
  | placeholder {item : HelpItem} (member : item ∈ items) (untyped : item.literal = false) :
      Extends word items [] (some (Output.help items).render)
  | nothing (none : items = []) : Extends word items [] .none

theorem Extends.eq_nil_of_listing {extension : List Char} {listing : Option (List String)}
    (extended : Extends word items extension listing) (listed : listing ≠ none) :
    extension = [] := by
  cases extended with
  | whole | further => contradiction
  | parted | placeholder | nothing => rfl

end Completion

namespace Editor

open Completion HelpItem

variable {completion : Completion} {history : History} {front after : List Char}

theorem applyCompletion_around (continues : AllContinue completion.stem completion.items) :
    ∃ extension listing,
      ({ buffer := .around (front ++ completion.stem.toList) after, history } : Editor).applyCompletion
          completion =
        .ok (listing,
          { buffer := .around (front ++ completion.stem.toList ++ extension) after, history }) ∧
      Extends completion.stem.toList completion.items extension listing := by
  unfold applyCompletion
  cases single : completion.unique? with
  | some word =>
      obtain ⟨item, only, typed, rfl⟩ := unique?_eq_some_iff.mp single
      obtain ⟨rest, text⟩ := continues item (only ▸ List.mem_singleton_self item) typed
      refine ⟨rest ++ [' '], none, ?_, .whole only typed text.symm⟩
      simp only [LineBuffer.replaceStem_around, String.toList_append, ← text, List.append_assoc]
      rfl
  | none =>
      by_cases some : completion.items = []
      · refine ⟨[], none, ?_, .nothing some⟩
        simp [commonStart?, some]
      by_cases typed : ∀ item ∈ completion.items, item.literal = true
      · have several := one_lt_length_of_unique? single some typed
        obtain ⟨rest, longest, shared⟩ := commonStart?_eq continues some typed
        by_cases onward : rest = []
        · subst onward
          rw [List.append_nil] at longest
          refine ⟨[], _, ?_, .parted several typed longest⟩
          simp [shared, some]
        · refine ⟨rest, none, ?_, .further several typed longest onward⟩
          simp only [shared, if_neg onward, LineBuffer.replaceStem_around, String.toList_ofList,
            List.append_assoc]
          rfl
      · obtain ⟨item, member, untyped⟩ : ∃ item ∈ completion.items, item.literal = false := by
          simpa using typed
        refine ⟨[], _, ?_, .placeholder member untyped⟩
        simp [commonStart?_of_untyped member untyped, some]

end Editor

namespace Session

open Completion

variable {σ : Type} {session : Session} {line : String} {completion : Completion}
  {fetched : Except Fault Names}

/-- Where the finished words of a line lead. -/
def locate (session : Session) (line : String) : Position :=
  Position.locate session.registry session.mode (Request.parse line).words

/-- The completion of a line, given the names that were fetched for it.  It is the empty
one if they could not be fetched. -/
def Completes (session : Session) (line : String) (fetched : Except Fault Names)
    (completion : Completion) : Prop :=
  match fetched with
  | .ok names => ofRequest session.registry session.mode names (Request.parse line)
      (session.locate line) = .ok completion
  | .error _ => completion = {}

theorem exists_completes (built : session.registry.Built) (line : String)
    (fetched : Except Fault Names) : ∃ completion, session.Completes line fetched completion := by
  cases fetched with
  | error fault => exact ⟨{}, rfl⟩
  | ok names => exact exists_ofRequest built.wellFormed names (Request.parse line)

/-- What cannot be found out is nothing. -/
theorem run_candidates (console : Console) (backend : Backend σ) (state : σ)
    (typed : console.editor.buffer.beforeCursor = .ok line) :
    (Program.run backend console.candidates state).1 =
      .ok ((Query.answer backend (console.session.complete line) state).1.toOption.getD {}) := by
  simp only [Console.candidates, typed, Program.run_andThen, Query.answer]
  rcases Program.run backend (console.session.complete line).run state with ⟨_ | _, _⟩ <;> rfl

theorem Completes.answer_complete (completes : session.Completes line fetched completion)
    {backend : Backend σ} {state : σ}
    (asked : (Query.answer backend (Query.names (session.locate line).nameKinds) state).1 = fetched) :
    (Query.answer backend (session.complete line) state).1.toOption.getD {} = completion := by
  have answered : (Query.answer backend (session.complete line) state).1 =
      fetched >>= fun names => ofRequest session.registry session.mode names (Request.parse line)
        (session.locate line) := by
    rw [complete_eq, ← asked]
    exact Query.fst_answer_bind_of _ _
  rw [answered]
  cases fetched with
  | error fault => exact completes.symm
  | ok names => exact congrArg (·.toOption.getD {}) completes

/-- Tab leaves the text after the cursor and only adds to the text before it. -/
theorem tab_keeps_text (built : session.registry.Built) (fetched : Except Fault Names)
    (history : History) (before after : List Char) :
    let line := String.ofList before
    let editor (text : List Char) : Editor := { buffer := .around text after, history }
    ∃ front completion extension listing,
      Text.EndsIn line front (Request.parse line).stem.toList ∧
      session.Completes line fetched completion ∧
      (editor before).applyCompletion completion = .ok (listing, editor (before ++ extension)) ∧
      Extends (Request.parse line).stem.toList completion.items extension listing ∧
      (listing ≠ none → extension = []) ∧
      ∀ {σ : Type} (backend : Backend σ) (state : σ),
        (Query.answer backend (Query.names (session.locate line).nameKinds) state).1 = fetched →
          (Program.run backend (Console.press .tab { editor := editor before, session }) state).1 =
            .ok (.completed listing, { editor := editor (before ++ extension), session }) := by
  intro line editor
  obtain ⟨completion, completes⟩ := exists_completes built line fetched
  obtain ⟨front, ends⟩ := exists_stem line
  have applied : ∃ extension listing,
      (editor before).applyCompletion completion = .ok (listing, editor (before ++ extension)) ∧
        Extends (Request.parse line).stem.toList completion.items extension listing := by
    cases fetched with
    | error fault =>
        cases completes
        refine ⟨[], none, ?_, .nothing rfl⟩
        rw [List.append_nil]
        rfl
    | ok names =>
        obtain ⟨stem, continues⟩ := continues_of_ofRequest completes
        have whole := ends.whole
        rw [String.toList_ofList] at whole
        rw [← stem] at continues whole ⊢
        simp only [whole]
        exact Editor.applyCompletion_around continues
  obtain ⟨extension, listing, applied, extended⟩ := applied
  refine ⟨front, completion, extension, listing, ends, completes, applied, extended,
    extended.eq_nil_of_listing, fun backend state asked => ?_⟩
  change (Program.run backend (Console.react { editor := editor before, session } .complete)
    state).1 = _
  rw [Console.react, Program.run_andThen,
    run_candidates _ backend state (LineBuffer.beforeCursor_around before after),
    completes.answer_complete asked]
  simp only [applied]
  rfl

/-- The names of two ports go on alike after the letter that was typed. -/
theorem tab_extends_port_name :
    let session : Session :=
      { registry := Feature.builtin, contexts := [{ mode := Feature.configMode }]
        hostname := "switch" }
    let names : Names := { interfaces := ["port10", "port2"] }
    let editor (text : String) : Editor :=
      { buffer := .around text.toList " # uplink".toList, history := { capacity := 10 } }
    session.registry.Built ∧ ∃ completion, session.Completes "int p" (.ok names) completion ∧
      (editor "int p").applyCompletion completion = .ok (none, editor "int port") := by
  intro session names editor
  have built : session.registry.Built := Feature.builtin_built
  have stem : (Request.parse "int p").stem = "p" := by decide
  have offered : ofRequest session.registry session.mode names (Request.parse "int p")
      (session.locate "int p") = .ok
        { stem := "p", items := [{ text := "port10", help := "Interface name" },
            { text := "port2", help := "Interface name" }] } := by decide +kernel
  have port : LongestStart (sharedStartOf "port10" ["port2"]).toList ["port10", "port2"] :=
    longestStart_sharedStartOf
  rw [show sharedStartOf "port10" ["port2"] = "port" by decide] at port
  obtain ⟨_, completion, extension, listing, _, completes, applied, extended, _⟩ :=
    tab_keeps_text built (.ok names) { capacity := 10 } "int p".toList " # uplink".toList
  refine ⟨built, completion, completes, ?_⟩
  cases offered.symm.trans completes
  rw [String.ofList_toList, stem] at extended
  cases extended with
  | whole only => cases only
  | further _ _ longest =>
      cases (List.append_cancel_left (longest.eq port : _ = "p".toList ++ "ort".toList))
      exact applied
  | parted _ _ longest => exact absurd (longest.eq port) (by decide)
  | placeholder member untyped =>
      rcases List.mem_pair.mp member with rfl | rfl <;> cases untyped
  | nothing none => cases none

end Session

end SwitchShell
