import SwitchShell.Json.Reader

namespace SwitchShell.Json

/-! Readers that do not mind where their input is cut.

`Reads loose bound reader text value` says what a reader does with inputs of at
most `bound` bytes that begin like `text`: with all of it in front the reader
gives the value and what follows, and with less it asks for more.  A loose
reader does not see the end of its text: it needs a byte behind it that cannot
belong to a number, and may be content with a part of it that ends the input.
-/

open Text (Bytes byteOf)

variable {α β : Type} {loose : Bool} {bound : Nat} {reader : Bytes → Reading α}
  {text front behind : Bytes} {value : α} {head : UInt8}

/-- A byte that may carry a number on. -/
def continuesNumber (byte : UInt8) : Bool :=
  isDigitByte byte || byte = byteOf '.' || byte = byteOf 'e' || byte = byteOf 'E'

/-- What follows a number. -/
def Delimits (rest : Bytes) : Prop :=
  ∀ byte ∈ rest.head?, continuesNumber byte = false

structure Reads (loose : Bool) (bound : Nat) (reader : Bytes → Reading α) (text : Bytes)
    (value : α) : Prop where
  whole : ∀ rest, (text ++ rest).length ≤ bound → (loose = true → Delimits rest) →
    reader (text ++ rest) = .complete value rest
  part : ∀ front behind, front ++ behind = text → behind ≠ [] → front.length ≤ bound →
    reader front = .incomplete ∨ loose = true ∧ ∃ other, reader front = .complete other []

theorem delimits_nil : Delimits [] := by
  intro byte member
  contradiction

theorem delimits_cons {rest : Bytes} (ends : continuesNumber head = false) :
    Delimits (head :: rest) := by
  intro other member
  cases member
  exact ends

theorem delimits_append_iff (some : front ≠ []) :
    Delimits (front ++ behind) ↔ Delimits front := by
  obtain ⟨first, others, rfl⟩ := List.exists_cons_of_ne_nil some
  rfl

/-- A cut through two texts is in the first one, or the first one is there as a whole. -/
theorem cut_of_append_eq {second : Bytes} (split : front ++ behind = text ++ second) :
    (∃ missing, front ++ missing = text ∧ missing ≠ []) ∨
      ∃ begun, front = text ++ begun ∧ begun ++ behind = second := by
  rcases List.append_eq_append_iff.mp split with ⟨missing, ends, rest⟩ | ⟨begun, ends, rest⟩
  · by_cases empty : missing = []
    · refine .inr ⟨[], ?_, ?_⟩ <;> simp_all
    · exact .inl ⟨missing, ends.symm, empty⟩
  · exact .inr ⟨begun, ends, rest.symm⟩

namespace Reads

theorem whole_strict (reads : Reads false bound reader text value) (rest : Bytes)
    (within : (text ++ rest).length ≤ bound) : reader (text ++ rest) = .complete value rest :=
  reads.whole rest within fun impossible => by contradiction

theorem part_strict (reads : Reads false bound reader text value)
    (split : front ++ behind = text) (more : behind ≠ []) (within : front.length ≤ bound) :
    reader front = .incomplete := by
  rcases reads.part front behind split more within with incomplete | ⟨impossible, _⟩
  · exact incomplete
  · contradiction

/-- Without input there is only the question for more. -/
theorem zero (asks : reader [] = .incomplete) (some : text ≠ []) :
    Reads loose 0 reader text value where
  whole rest within := by
    have empty := List.append_eq_nil_iff.mp (List.length_eq_zero_iff.mp (Nat.le_zero.mp within))
    exact absurd empty.1 some
  part front _ _ _ within := by
    rw [List.length_eq_zero_iff.mp (Nat.le_zero.mp within)]
    exact .inl asks

/-- The text is at its end. -/
theorem done (gives : ∀ rest, reader rest = .complete value rest) :
    Reads loose bound reader [] value where
  whole rest _ _ := gives rest
  part _ _ split more := absurd (List.append_eq_nil_iff.mp split).2 more

theorem byte {later : Bytes → Reading α} (asks : reader [] = .incomplete)
    (takes : ∀ rest, reader (head :: rest) = later rest)
    (reads : Reads loose (bound - 1) later text value) :
    Reads loose bound reader (head :: text) value where
  whole rest within delimits := by
    rw [List.cons_append, takes]
    exact reads.whole rest (Nat.le_sub_one_of_lt within) delimits
  part front behind split more within := by
    cases front with
    | nil => exact .inl asks
    | cons first others =>
        simp only [List.cons_append, List.cons.injEq] at split
        obtain ⟨rfl, split⟩ := split
        rw [takes]
        exact reads.part others behind split more (Nat.le_sub_one_of_lt within)

/-- A reader that begins like another one does what that one does. -/
theorem congr {other : Bytes → Reading α} {rest : Bytes} (asks : reader [] = .incomplete)
    (same : ∀ rest, reader (head :: rest) = other (head :: rest))
    (reads : Reads loose bound other (head :: rest) value) :
    Reads loose bound reader (head :: rest) value where
  whole more within delimits := by
    rw [List.cons_append, same]
    exact reads.whole more within delimits
  part front behind split more within := by
    cases front with
    | nil => exact .inl asks
    | cons first others =>
        obtain ⟨rfl, _⟩ := List.cons.inj split
        rw [same]
        exact reads.part (first :: others) behind split more within

/-- The input may choose the reader by its length. -/
theorem ofLength (readers : Nat → Bytes → Reading α)
    (reads : ∀ bound, Reads loose bound (readers bound) text value) :
    Reads loose bound (fun input => readers input.length input) text value where
  whole rest _ := (reads _).whole rest (Nat.le_refl _)
  part front behind split more _ := (reads _).part front behind split more (Nat.le_refl _)

/-- One text after another.  After a loose one the other must begin with a byte
that ends numbers, and its reader must ask for more when there is nothing. -/
theorem bind {next : α → Bytes → Reading β} {second : Bytes} {result : β}
    (reads : Reads loose bound reader text value)
    (onward : Reads false (bound - text.length) (next value) second result)
    (joint : loose = true →
      second ≠ [] ∧ Delimits second ∧ ∀ other, next other [] = .incomplete) :
    Reads false bound (fun input => (reader input).bind next) (text ++ second) result where
  whole rest within _ := by
    have delimits : loose = true → Delimits (second ++ rest) := by
      intro isLoose
      obtain ⟨some, delimits, _⟩ := joint isLoose
      exact (delimits_append_iff some).mpr delimits
    rw [List.append_assoc] at within ⊢
    rw [reads.whole (second ++ rest) within delimits]
    refine onward.whole_strict rest ?_
    rw [List.length_append] at within
    exact Nat.le_sub_of_add_le (by omega)
  part front behind split more within := by
    refine .inl ?_
    rcases cut_of_append_eq split with ⟨missing, ends, some⟩ | ⟨begun, rfl, ends⟩
    · rcases reads.part front missing ends some within with asks | ⟨isLoose, other, content⟩
      · rw [asks]
        rfl
      · rw [content]
        exact (joint isLoose).2.2 other
    · have delimits : loose = true → Delimits begun := by
        intro isLoose
        obtain ⟨_, delimits, _⟩ := joint isLoose
        by_cases empty : begun = []
        · exact empty ▸ delimits_nil
        · exact (delimits_append_iff empty).mp (ends ▸ delimits)
      rw [reads.whole begun within delimits]
      refine onward.part_strict ends more ?_
      rw [List.length_append] at within
      omega

theorem map (result : α → β) (reads : Reads false bound reader text value) :
    Reads false bound (fun input => (reader input).bind fun value rest =>
      .complete (result value) rest) text (result value) := by
  have joined : Reads false bound (fun input => (reader input).bind fun value rest =>
      .complete (result value) rest) (text ++ []) (result value) :=
    reads.bind (done fun _ => rfl) fun impossible => by contradiction
  rwa [List.append_nil] at joined

end Reads

end SwitchShell.Json
