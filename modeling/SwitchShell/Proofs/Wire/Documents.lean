import SwitchShell.Proofs.Json.RoundTrip
import SwitchShell.Wire.Stream

namespace SwitchShell.Wire

open Text (Bytes byteOf)
open Json (Reads written)

def isContainer : Json → Bool
  | .array _ | .object _ => true
  | _ => false

/-- An array or an object as a peer may send it: its compact text, the members
of objects in any order, and white space behind it. -/
structure Document where
  spelled : Json
  gap : Bytes
  container : isContainer spelled = true
  plain : spelled.Plain Json.maxDepth
  blank : ∀ byte ∈ gap, isGap byte = true

namespace Document

def bytes (document : Document) : Bytes :=
  Text.bytes document.spelled.render ++ document.gap

def value (document : Document) : Json :=
  document.spelled.canonical

theorem value_of_ordered {document : Document} (ordered : document.spelled.Ordered) :
    document.value = document.spelled :=
  Json.canonical_of_ordered ordered

end Document

variable {ending : Ending} {buffer gap text rest : Bytes} {pieces chunks : List Bytes}
  {value : Json} {stream : Stream}

theorem begins_container (container : isContainer value = true) :
    ∃ head rest, written value = head :: rest ∧ isGap head = false ∧ showsEnd head = true := by
  cases value with
  | array items => cases items <;> exact ⟨_, _, rfl, rfl, rfl⟩
  | object members => cases members <;> exact ⟨_, _, rfl, rfl, rfl⟩
  | _ => cases container

theorem isNumber_of_isContainer (container : isContainer value = true) :
    value.isNumber = false := by
  cases value with
  | integer | float => cases container
  | _ => rfl

theorem takeDocument_of_showsEnd {head : UInt8} (start : isGap head = false)
    (shows : showsEnd head = true) (rest : Bytes) :
    takeDocument (head :: rest) = Json.read (head :: rest) := by
  have kept : (head :: rest).dropWhile isGap = head :: rest := by
    rw [List.dropWhile_cons, start]
    rfl
  rw [takeDocument, kept]
  cases found : Json.read (head :: rest) <;> simp [shows, found]

/-- An array or an object behind white space is taken as soon as it is there. -/
theorem reads_document {bound : Nat} (blank : ∀ byte ∈ gap, isGap byte = true)
    (container : isContainer value = true) (printable : value.Printable Json.maxDepth) :
    Reads false bound takeDocument (gap ++ written value) value.reread := by
  induction gap generalizing bound with
  | nil =>
      obtain ⟨head, rest, split, start, shows⟩ := begins_container container
      have each : ∀ size, Reads false size (Json.readValue (3 * size + 3) Json.maxDepth)
          (written value) value.reread := by
        intro size
        rw [← isNumber_of_isContainer container]
        exact Json.reads_value printable size (3 * size + 3) (by omega)
      have reads : Reads false bound Json.read (written value) value.reread :=
        .ofLength (fun size => Json.readValue (3 * size + 3) Json.maxDepth) each
      rw [List.nil_append]
      rw [split] at reads ⊢
      exact .congr rfl (takeDocument_of_showsEnd start shows) reads
  | cons byte gap ih =>
      refine .byte rfl (fun rest => ?_) (ih fun other member =>
        blank other (List.mem_cons_of_mem byte member))
      have skipped : (byte :: rest).dropWhile isGap = rest.dropWhile isGap := by
        rw [List.dropWhile_cons, blank byte List.mem_cons_self]
        rfl
      rw [takeDocument, skipped, takeDocument]

/-- A document behind white space is taken as its value. -/
theorem Document.reads {bound : Nat} (document : Document) (blank : ∀ byte ∈ gap, isGap byte = true) :
    Reads false bound takeDocument (gap ++ written document.spelled) document.value := by
  rw [Document.value, ← Json.reread_of_plain document.plain]
  exact reads_document blank document.container document.plain.printable

/-- Pieces are gathered up to the end of the document. -/
theorem nextDocument_of_reads (ending : Ending)
    (reads : ∀ bound, Reads false bound takeDocument text value)
    (arrives : buffer ++ pieces.flatten = text ++ rest) :
    ∃ kept later, nextDocument ending buffer pieces = (.ok value, kept, later) ∧
      kept ++ later.flatten = rest := by
  induction pieces generalizing buffer with
  | nil =>
      rw [List.flatten_nil, List.append_nil] at arrives
      refine ⟨rest, [], ?_, List.append_nil rest⟩
      rw [nextDocument, arrives, (reads _).whole_strict rest (Nat.le_refl _)]
  | cons piece pieces ih =>
      -- Either the document is cut and the next piece is asked for, or it is at hand.
      rcases Json.cut_of_append_eq arrives with ⟨missing, ends, more⟩ | ⟨begun, rfl, ends⟩
      · rw [nextDocument, (reads _).part_strict ends more (Nat.le_refl _)]
        refine ih ?_
        rwa [List.append_assoc]
      · refine ⟨begun, piece :: pieces, ?_, ends⟩
        rw [nextDocument, (reads _).whole_strict begun (Nat.le_refl _)]

theorem takeDocument_of_blank (blank : ∀ byte ∈ gap, isGap byte = true) :
    takeDocument gap = .incomplete := by
  have nothing : (gap ++ []).dropWhile isGap = [] := List.dropWhile_append_of_pos blank
  rw [List.append_nil] at nothing
  rw [takeDocument, nothing]

theorem nextDocument_of_blank
    (blank : ∀ byte ∈ buffer ++ pieces.flatten, isGap byte = true) :
    (nextDocument ending buffer pieces).1 = .error ending.fault := by
  induction pieces generalizing buffer with
  | nil =>
      rw [List.flatten_nil, List.append_nil] at blank
      rw [nextDocument, takeDocument_of_blank blank]
  | cons piece pieces ih =>
      rw [nextDocument, takeDocument_of_blank fun byte member =>
        blank byte (List.mem_append_left _ member)]
      refine ih fun byte member => blank byte ?_
      rwa [List.append_assoc] at member

theorem flatten_cut {size fuel : Nat} (input : Bytes) (positive : 0 < size)
    (enough : input.length ≤ fuel) : (cut size fuel input).flatten = input := by
  induction fuel generalizing input with
  | zero =>
      rw [List.length_eq_zero_iff.mp (Nat.le_zero.mp enough)]
      rfl
  | succ fuel ih =>
      rw [cut]
      split
      · rename_i empty
        exact (List.isEmpty_iff.mp empty).symm
      · rename_i some
        have front : 0 < input.length := List.length_pos_iff.mpr (by simpa using some)
        rw [List.flatten_cons, ih (input.drop size), List.take_append_drop]
        rw [List.length_drop]
        omega

namespace Stream

def remaining (stream : Stream) : Bytes :=
  stream.buffer ++ stream.pieces.flatten

theorem remaining_ofChunks (chunks : List Bytes) (ending : Ending) :
    (ofChunks chunks ending).remaining = chunks.flatten := by
  change [] ++ (chunks.flatMap fun chunk => cut pieceSize chunk.length chunk).flatten = _
  induction chunks with
  | nil => rfl
  | cons chunk chunks ih =>
      rw [List.nil_append] at ih ⊢
      rw [List.flatMap_cons, List.flatten_append, ih, List.flatten_cons,
        flatten_cut chunk (by decide) (Nat.le_refl _)]

/-- What so many calls in a row answer. -/
def answers : Nat → Stream → List (Except Fault Json)
  | 0, _ => []
  | count + 1, stream => stream.next.1 :: answers count stream.next.2

theorem next_of_reads (reads : ∀ bound, Reads false bound takeDocument text value)
    (arrives : stream.remaining = text ++ rest) :
    ∃ after, stream.next = (.ok value, after) ∧ after.remaining = rest ∧
      after.ending = stream.ending := by
  obtain ⟨kept, later, taken, left⟩ := nextDocument_of_reads stream.ending reads arrives
  refine ⟨{ stream with buffer := kept, pieces := later }, ?_, left, rfl⟩
  rw [next, taken]

theorem next_of_blank (blank : ∀ byte ∈ stream.remaining, isGap byte = true) :
    stream.next.1 = .error stream.ending.fault :=
  nextDocument_of_blank blank

/-- A stream answers with the documents it holds, and then that it is at its end. -/
theorem answers_of_remaining (lead : Bytes) (documents : List Document)
    (blank : ∀ byte ∈ lead, isGap byte = true)
    (sent : stream.remaining = lead ++ documents.flatMap Document.bytes) :
    stream.answers (documents.length + 1) =
      documents.map (fun document => .ok document.value) ++ [.error stream.ending.fault] := by
  induction documents generalizing stream lead with
  | nil =>
      rw [List.flatMap_nil, List.append_nil] at sent
      have fails := next_of_blank (sent ▸ blank)
      simp only [List.length_nil, answers, fails, List.map_nil, List.nil_append]
  | cons document documents ih =>
      -- The white space behind a document leads on to the next one.
      have arrives : stream.remaining = (lead ++ written document.spelled) ++
          (document.gap ++ documents.flatMap Document.bytes) := by
        rw [sent, List.flatMap_cons, Document.bytes, Json.bytes_render]
        simp only [List.append_assoc]
      obtain ⟨after, taken, left, same⟩ := next_of_reads
        (fun _ => document.reads blank) arrives
      have later := ih document.gap document.blank left
      rw [List.length_cons, answers, taken, later, same]
      rfl

/-- However the bytes of documents are cut into chunks, each call answers with
the next document, and the call after the last one that there is nothing left.
A document whose members are written in order is answered as it is. -/
theorem answers_ofChunks (lead : Bytes) (documents : List Document) (chunks : List Bytes)
    (blank : ∀ byte ∈ lead, isGap byte = true)
    (sent : chunks.flatten = lead ++ documents.flatMap Document.bytes) :
    (ofChunks chunks .closed).answers (documents.length + 1) =
        documents.map (fun document => .ok document.value) ++ [.error (.database .closedEarly)] ∧
      (∀ document ∈ documents, document.spelled.Ordered → document.value = document.spelled) ∧
      DatabaseTrouble.closedEarly.message = "connection closed before a complete response" := by
  refine ⟨?_, fun _ _ => Document.value_of_ordered, rfl⟩
  rw [← remaining_ofChunks chunks .closed] at sent
  exact answers_of_remaining lead documents blank sent

/-- The cuts are inside a member and inside a character. -/
theorem answers_two_documents :
    (ofChunks [[0x20, 0x7B, 0x22, 0x69], [0x64, 0x22, 0x3A, 0x31], [0x7D, 0x0C, 0x5B, 0x22, 0xC3],
        [0xA9, 0x22, 0x5D]] .closed).answers 3 =
      [.ok (.object [("id", .integer 1)]), .ok (.array [.string "é"]),
        .error (.database .closedEarly)] := by
  have numbered : (Json.object [("id", .integer 1)]).Plain Json.maxDepth := by
    refine .object fun member present => ?_
    cases List.mem_singleton.mp present
    exact .integer (by decide) (by decide)
  have accented : (Json.array [.string "é"]).Plain Json.maxDepth := by
    refine .array fun item present => ?_
    cases List.mem_singleton.mp present
    exact .string "é"
  have space : ∀ byte ∈ [0x20], isGap byte = true := by
    intro byte member
    cases List.mem_singleton.mp member
    rfl
  have formFeed : ∀ byte ∈ [0x0C], isGap byte = true := by
    intro byte member
    cases List.mem_singleton.mp member
    rfl
  have nothing : ∀ byte ∈ ([] : Bytes), isGap byte = true := by
    intro byte member
    cases member
  exact (answers_ofChunks [0x20]
    [⟨_, [0x0C], rfl, numbered, formFeed⟩, ⟨_, [], rfl, accented, nothing⟩] _ space rfl).1

end Stream

end SwitchShell.Wire
