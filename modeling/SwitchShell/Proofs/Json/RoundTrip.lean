import SwitchShell.Proofs.Json.Floats
import SwitchShell.Proofs.Json.Plain
import SwitchShell.Proofs.Json.Strings

namespace SwitchShell.Json

open Text (Bytes byteOf encode)

variable {bound fuel depth : Nat} {value item : Json} {items : List Json} {name : String}
  {members : List (String × Json)} {head : UInt8} {rest : Bytes}

/-- The bytes of the compact text of a value. -/
def written (value : Json) : Bytes :=
  encode value.chars

theorem bytes_render (value : Json) : Text.bytes value.render = written value :=
  Text.bytes_ofList value.chars

def beginsValue (byte : UInt8) : Bool :=
  !isBlankByte byte && byte != byteOf ']'

theorem skipBlank_of_beginsValue (begins : beginsValue head = true) :
    skipBlank (head :: rest) = head :: rest := by
  simp only [beginsValue, Bool.and_eq_true, Bool.not_eq_true'] at begins
  simp [skipBlank, begins.1]

theorem ne_of_digit {other : UInt8} (digit : isDigitByte head = true)
    (different : isDigitByte other = false) : head ≠ other := by
  rintro rfl
  rw [digit] at different
  contradiction

theorem beginsValue_of_digit (digit : isDigitByte head = true) : beginsValue head = true := by
  have space : head ≠ 0x20 := ne_of_digit digit rfl
  have lineFeed : head ≠ 0x0A := ne_of_digit digit rfl
  have tab : head ≠ 0x09 := ne_of_digit digit rfl
  have carriageReturn : head ≠ 0x0D := ne_of_digit digit rfl
  have bracket : head ≠ byteOf ']' := ne_of_digit digit rfl
  simp [beginsValue, isBlankByte, space, lineFeed, tab, carriageReturn, bracket]

theorem written_natural (number : Nat) :
    written (.integer (Int.ofNat number)) = digitBytes number :=
  encode_natural number

theorem written_negative (number : Nat) :
    written (.integer (Int.negSucc number)) = byteOf '-' :: digitBytes (number + 1) :=
  encode_negative number

theorem exists_digitBytes_eq_cons (number : Nat) :
    ∃ head rest, digitBytes number = head :: rest ∧ isDigitByte head = true := by
  have numeral := numeral_digitBytes number
  obtain ⟨head, rest, split⟩ := List.exists_cons_of_ne_nil numeral.nonempty
  exact ⟨head, rest, split, numeral.digit head (split ▸ List.mem_cons_self)⟩

theorem begins_written (printable : Printable depth value) :
    ∃ head rest, written value = head :: rest ∧ beginsValue head = true := by
  cases printable with
  | null => exact ⟨_, _, rfl, rfl⟩
  | bool value => cases value <;> exact ⟨_, _, rfl, rfl⟩
  | @integer _ number _ _ =>
      cases number with
      | ofNat number =>
          obtain ⟨head, rest, split, digit⟩ := exists_digitBytes_eq_cons number
          exact ⟨head, rest, (written_natural number).trans split, beginsValue_of_digit digit⟩
      | negSucc number => exact ⟨_, _, written_negative number, rfl⟩
  | @float _ number finite =>
      obtain ⟨negative, text, split, reads⟩ := exists_text_of_isFinite finite
      obtain ⟨head, rest, rfl, digit⟩ := reads.begins
      cases negative with
      | false => exact ⟨head, rest, split, beginsValue_of_digit digit⟩
      | true => exact ⟨_, _, split, rfl⟩
  | string value => exact ⟨_, _, rfl, rfl⟩
  | @array _ items _ => cases items <;> exact ⟨_, _, rfl, rfl⟩
  | @object _ members _ => cases members <;> exact ⟨_, _, rfl, rfl⟩

@[simp] theorem readValue_nil : readValue fuel depth [] = .incomplete := by
  cases fuel <;> rw [readValue]
  rfl

@[simp] theorem readArray_nil : readArray fuel depth [] = .incomplete := by
  cases fuel <;> rw [readArray]
  rfl

@[simp] theorem readItems_nil : readItems fuel depth [] = .incomplete := by
  cases fuel <;> rw [readItems]
  rw [readValue_nil]
  rfl

@[simp] theorem readObject_nil : readObject fuel depth [] = .incomplete := by
  cases fuel <;> rw [readObject]
  rfl

@[simp] theorem readMembers_nil : readMembers fuel depth [] = .incomplete := by
  cases fuel <;> rw [readMembers]
  rfl

/-- Only a number does not show where it ends. -/
def isNumber : Json → Bool
  | .integer _ | .float _ => true
  | _ => false

/-- What a reader of values does with the text of a value, with fuel for three
calls a byte. -/
def ReadsValue (depth : Nat) (value : Json) : Prop :=
  ∀ bound fuel, 3 * bound ≤ fuel →
    Reads value.isNumber bound (readValue fuel depth) (written value) value.reread

/-- It is enough to look at readers that may take a first byte. -/
theorem readsValue_of_succ (some : written value ≠ [])
    (reads : ∀ bound fuel, 3 * bound + 1 ≤ fuel →
      Reads value.isNumber (bound + 1) (readValue (fuel + 2) depth) (written value)
        value.reread) :
    ReadsValue depth value := by
  intro bound fuel enough
  cases bound with
  | zero => exact .zero readValue_nil some
  | succ bound =>
      obtain ⟨fuel, rfl⟩ := Nat.exists_eq_add_of_le' (show 2 ≤ fuel by omega)
      exact reads bound fuel (by omega)

theorem readValue_digit (digit : isDigitByte head = true) :
    readValue (fuel + 1) depth (head :: rest) = readNumber false (head :: rest) := by
  have letterN : head ≠ byteOf 'n' := ne_of_digit digit rfl
  have letterT : head ≠ byteOf 't' := ne_of_digit digit rfl
  have letterF : head ≠ byteOf 'f' := ne_of_digit digit rfl
  have minus : head ≠ byteOf '-' := ne_of_digit digit rfl
  rw [readValue, skipBlank_of_beginsValue (beginsValue_of_digit digit)]
  simp only [letterN, letterT, letterF, minus, digit, ↓reduceIte]

theorem readValue_minus :
    readValue (fuel + 1) depth (byteOf '-' :: rest) = readNumber true rest := by
  rw [readValue]
  rfl

theorem reads_natural {number : Nat} (fits : number ≤ Text.maxUnsigned64) :
    ReadsValue depth (.integer (Int.ofNat number)) := by
  obtain ⟨head, rest, split, digit⟩ := exists_digitBytes_eq_cons number
  have text := (written_natural number).trans split
  refine readsValue_of_succ (text ▸ List.cons_ne_nil head rest) fun bound fuel _ => ?_
  rw [text]
  refine .congr readValue_nil (fun _ => readValue_digit digit) ?_
  rw [← split]
  refine reads_numeral (numeral_digitBytes number) ?_ fun rest => ?_
  · rwa [numberOf_digitBytes]
  · rw [numberOf_digitBytes]
    rfl

theorem reads_negative {number : Nat} (fits : number ≤ Text.maxSigned64) :
    ReadsValue depth (.integer (Int.negSucc number)) := by
  have text := written_negative number
  refine readsValue_of_succ (text ▸ List.cons_ne_nil _ _) fun bound fuel _ => ?_
  rw [text]
  refine .byte readValue_nil (fun _ => readValue_minus)
    (reads_numeral (numeral_digitBytes (number + 1)) ?_ fun rest => ?_)
  · have larger : Text.maxSigned64 + 1 ≤ Text.maxUnsigned64 := by decide
    rw [numberOf_digitBytes]
    omega
  · have small : number + 1 ≠ 0 ∧ number + 1 ≤ Text.maxSigned64 + 1 :=
      ⟨Nat.succ_ne_zero number, Nat.succ_le_succ fits⟩
    rw [numberOf_digitBytes, wholeNumber, if_pos rfl, if_pos small]
    rfl

/-- A floating-point number is read as one, wherever its text is cut. -/
theorem exists_reads_float {number : Float} (finite : number.isFinite = true) :
    ∃ other : Float, ∀ depth bound fuel, 1 ≤ fuel →
      Reads true bound (readValue fuel depth) (written (.float number)) (.float other) := by
  obtain ⟨negative, text, split, reads⟩ := exists_text_of_isFinite finite
  obtain ⟨head, rest, rfl, digit⟩ := reads.begins
  obtain ⟨other, reads⟩ := reads
  refine ⟨other, fun depth bound fuel some => ?_⟩
  obtain ⟨fuel, rfl⟩ := Nat.exists_eq_add_of_le' some
  change Reads true bound _ (encode (floatText number).toList) _
  rw [split]
  cases negative with
  | false => exact .congr readValue_nil (fun _ => readValue_digit digit) (reads bound)
  | true => exact .byte readValue_nil (fun _ => readValue_minus) (reads (bound - 1))

theorem bytes_floatText (number : Float) : Text.bytes (floatText number) = written (.float number) := by
  rw [written, chars, ← Text.bytes_ofList, String.ofList_toList]

theorem reads_float {number : Float} (finite : number.isFinite = true) :
    ReadsValue depth (.float number) := by
  obtain ⟨other, reads⟩ := exists_reads_float finite
  have whole : read (written (.float number)) = .complete (.float other) [] := by
    have content := (reads maxDepth _ (3 * (written (.float number)).length + 3) (by omega)).whole []
      (Nat.le_refl _) fun _ => delimits_nil
    rwa [List.append_nil] at content
  have same : rereadFloat number = other := by
    rw [rereadFloat, parse?, bytes_floatText, whole]
    rfl
  obtain ⟨head, rest, split, _⟩ := begins_written (.float finite : Printable 0 (.float number))
  refine readsValue_of_succ (split ▸ List.cons_ne_nil head rest) fun bound fuel _ => ?_
  rw [reread, same]
  exact reads depth (bound + 1) (fuel + 2) (by omega)

/-- What follows an item. -/
def afterItem (fuel depth : Nat) (item : Json) (input : Bytes) : Reading (List Json) :=
  match skipBlank input with
  | [] => .incomplete
  | byte :: rest =>
      if byte = byteOf ']' then .complete [item] rest
      else if byte = byteOf ',' then
        (readItems fuel depth rest).bind fun items rest => .complete (item :: items) rest
      else .malformed

theorem readItems_succ :
    readItems (fuel + 1) depth = fun input =>
      (readValue fuel depth input).bind (afterItem fuel depth) := by
  funext input
  rw [readItems]
  rfl

theorem encode_itemChars_nil : encode (itemChars []) = [byteOf ']'] := rfl

theorem encode_itemChars_cons :
    encode (itemChars (item :: items)) =
      byteOf ',' :: (written item ++ encode (itemChars items)) := by
  rw [itemChars, Text.encode_cons, Text.encode_append]
  rfl

theorem reads_items (each : ∀ other ∈ item :: items, ReadsValue depth other)
    (enough : 3 * bound + 1 ≤ fuel) :
    Reads false bound (readItems fuel depth) (written item ++ encode (itemChars items))
      (rereadItems (item :: items)) := by
  induction items generalizing bound fuel item with
  | nil =>
      cases fuel with
      | zero => omega
      | succ fuel =>
          rw [readItems_succ, encode_itemChars_nil]
          have first := each item List.mem_cons_self bound fuel (by omega)
          refine first.bind (.byte rfl (fun _ => rfl) (.done fun _ => rfl)) fun _ => ?_
          exact ⟨List.cons_ne_nil _ _, delimits_cons rfl, fun _ => rfl⟩
  | cons second items ih =>
      rw [encode_itemChars_cons]
      cases bound with
      | zero => exact .zero readItems_nil (by simp)
      | succ bound =>
          cases fuel with
          | zero => omega
          | succ fuel =>
              rw [readItems_succ]
              have first := each item List.mem_cons_self (bound + 1) fuel (by omega)
              have others : Reads false (bound + 1 - (written item).length - 1)
                  (readItems fuel depth) (written second ++ encode (itemChars items))
                  (rereadItems (second :: items)) :=
                ih (fun other member => each other (List.mem_cons_of_mem item member)) (by omega)
              refine first.bind (.byte rfl (fun _ => rfl) (others.map _)) fun _ => ?_
              exact ⟨List.cons_ne_nil _ _, delimits_cons rfl, fun _ => rfl⟩

theorem readArray_of_beginsValue (begins : beginsValue head = true) :
    readArray (fuel + 1) depth (head :: rest) =
      (readItems fuel depth (head :: rest)).bind fun items rest => .complete (.array items) rest := by
  have bracket : head ≠ byteOf ']' := by
    simp only [beginsValue, Bool.and_eq_true, bne_iff_ne] at begins
    exact begins.2
  rw [readArray, skipBlank_of_beginsValue begins]
  simp only [bracket, ↓reduceIte]

theorem written_array_nil : written (.array []) = [byteOf '[', byteOf ']'] := rfl

theorem written_array_cons :
    written (.array (item :: items)) =
      byteOf '[' :: (written item ++ encode (itemChars items)) := by
  rw [written, chars, Text.encode_cons, Text.encode_append]
  rfl

theorem readValue_bracket :
    readValue (fuel + 1) (depth + 1) (byteOf '[' :: rest) = readArray fuel depth rest := by
  rw [readValue]
  rfl

theorem reads_array (each : ∀ item ∈ items, Printable depth item)
    (reads : ∀ item ∈ items, ReadsValue depth item) : ReadsValue (depth + 1) (.array items) := by
  cases items with
  | nil =>
      refine readsValue_of_succ (List.cons_ne_nil _ _) fun bound fuel _ => ?_
      rw [written_array_nil]
      refine .byte readValue_nil (fun _ => readValue_bracket) (.byte readArray_nil (fun rest => ?_)
        (.done fun _ => rfl))
      rw [readArray]
      rfl
  | cons item items =>
      refine readsValue_of_succ (List.cons_ne_nil _ _) fun bound fuel enough => ?_
      rw [written_array_cons]
      refine .byte readValue_nil (fun _ => readValue_bracket) ?_
      obtain ⟨head, rest, split, begins⟩ := begins_written (each item List.mem_cons_self)
      have joined := (reads_items reads enough).map Json.array
      rw [split, List.cons_append] at joined ⊢
      exact .congr readArray_nil (fun _ => readArray_of_beginsValue begins) joined

/-- The text of a string behind its opening quote. -/
def unquoted (text : String) : Bytes :=
  encode (text.toList.flatMap escaped) ++ [byteOf '"']

theorem encode_quoted : encode (quoted name) = byteOf '"' :: unquoted name := by
  rw [quoted, Text.encode_cons, Text.encode_append]
  rfl

theorem reads_text : ReadsValue depth (.string name) := by
  refine readsValue_of_succ (List.cons_ne_nil _ _) fun bound fuel _ => ?_
  have text : written (.string name) = byteOf '"' :: unquoted name := encode_quoted
  rw [text]
  refine .byte readValue_nil (fun rest => ?_) ((reads_string name).map Json.string)
  rw [readValue]
  rfl

/-- What follows a member. -/
def afterMember (fuel depth : Nat) (name : String) (value : Json) (input : Bytes) :
    Reading (List (String × Json)) :=
  match skipBlank input with
  | [] => .incomplete
  | byte :: rest =>
      if byte = byteOf '\x7d' then .complete [(name, value)] rest
      else if byte = byteOf ',' then
        (readMembers fuel depth rest).bind fun members rest =>
          .complete ((name, value) :: members) rest
      else .malformed

/-- What follows the name of a member. -/
def afterName (fuel depth : Nat) (name : String) (input : Bytes) :
    Reading (List (String × Json)) :=
  match skipBlank input with
  | [] => .incomplete
  | colon :: rest =>
      if colon = byteOf ':' then
        (readValue fuel depth rest).bind (afterMember fuel depth name)
      else .malformed

theorem readMembers_quote :
    readMembers (fuel + 1) depth (byteOf '"' :: rest) =
      (readString (rest.length + 1) [] rest).bind (afterName fuel depth) := by
  rw [readMembers]
  rfl

/-- One member, when the rest behind its value is read. -/
theorem reads_member {ending : Bytes} {result : List (String × Json)}
    (reads : ReadsValue depth value)
    (some : ending ≠ []) (delimits : Delimits ending) (enough : 3 * bound ≤ fuel)
    (onward : ∀ room < bound,
      Reads false room (afterMember fuel depth name value.reread) ending result) :
    Reads false bound (readMembers (fuel + 1) depth)
      (byteOf '"' :: (unquoted name ++ byteOf ':' :: (written value ++ ending)))
      result := by
  cases bound with
  | zero => exact .zero readMembers_nil (List.cons_ne_nil _ _)
  | succ bound =>
      -- The quote, the name, the colon, the value: each leaves less input.
      refine .byte readMembers_nil (fun _ => readMembers_quote) ?_
      refine (reads_string name).bind ?_ fun impossible => by contradiction
      refine .byte rfl (fun _ => rfl) ?_
      refine (reads _ fuel ?_).bind (onward _ ?_) fun _ => ⟨some, delimits, fun _ => rfl⟩
      · omega
      · omega

theorem encode_memberChars_nil : encode (memberChars []) = [byteOf '\x7d'] := rfl

theorem encode_memberChars_cons :
    encode (memberChars ((name, value) :: members)) =
      byteOf ',' :: byteOf '"' :: (unquoted name ++ byteOf ':' ::
        (written value ++ encode (memberChars members))) := by
  rw [memberChars, Text.encode_cons, Text.encode_append, encode_quoted, Text.encode_cons,
    Text.encode_append]
  rfl

theorem reads_members (each : ∀ other ∈ (name, value) :: members, ReadsValue depth other.2)
    (enough : 3 * bound + 1 ≤ fuel) :
    Reads false bound (readMembers fuel depth)
      (byteOf '"' :: (unquoted name ++ byteOf ':' ::
        (written value ++ encode (memberChars members))))
      (rereadMembers ((name, value) :: members)) := by
  obtain ⟨fuel, rfl⟩ := Nat.exists_eq_add_of_le' (show 1 ≤ fuel by omega)
  have first := each (name, value) List.mem_cons_self
  induction members generalizing bound fuel name value with
  | nil =>
      rw [encode_memberChars_nil]
      refine reads_member first (List.cons_ne_nil _ _) (delimits_cons rfl) (by omega)
        fun room _ => ?_
      exact .byte rfl (fun _ => rfl) (.done fun _ => rfl)
  | cons second members ih =>
      rw [encode_memberChars_cons]
      refine reads_member first (List.cons_ne_nil _ _) (delimits_cons rfl) (by omega)
        fun room less => ?_
      have others : ∀ other ∈ second :: members, ReadsValue depth other.2 := fun other member =>
        each other (List.mem_cons_of_mem (name, value) member)
      obtain ⟨fuel, rfl⟩ := Nat.exists_eq_add_of_le' (show 1 ≤ fuel by omega)
      have enoughLater : 3 * (room - 1) + 1 ≤ fuel + 1 := by omega
      have later := ih others fuel enoughLater (others second List.mem_cons_self)
      exact .byte rfl (fun _ => rfl) (later.map _)

theorem readObject_quote :
    readObject (fuel + 1) depth (byteOf '"' :: rest) =
      (readMembers fuel depth (byteOf '"' :: rest)).bind fun members rest =>
        .complete (.object (Dictionary.ofPairs members)) rest := by
  rw [readObject]
  rfl

theorem readValue_brace :
    readValue (fuel + 1) (depth + 1) (byteOf '\x7b' :: rest) = readObject fuel depth rest := by
  rw [readValue]
  rfl

theorem written_object_nil : written (.object []) = [byteOf '\x7b', byteOf '\x7d'] := rfl

theorem written_object_cons :
    written (.object ((name, value) :: members)) =
      byteOf '\x7b' :: byteOf '"' :: (unquoted name ++ byteOf ':' ::
        (written value ++ encode (memberChars members))) := by
  rw [written, chars, Text.encode_cons, Text.encode_append, encode_quoted, Text.encode_cons,
    Text.encode_append]
  rfl

theorem reads_object (reads : ∀ member ∈ members, ReadsValue depth member.2) :
    ReadsValue (depth + 1) (.object members) := by
  cases members with
  | nil =>
      refine readsValue_of_succ (List.cons_ne_nil _ _) fun bound fuel _ => ?_
      rw [written_object_nil]
      refine .byte readValue_nil (fun _ => readValue_brace) (.byte readObject_nil (fun rest => ?_)
        (.done fun _ => rfl))
      rw [readObject]
      rfl
  | cons member members =>
      obtain ⟨name, value⟩ := member
      refine readsValue_of_succ (List.cons_ne_nil _ _) fun bound fuel enough => ?_
      rw [written_object_cons]
      refine .byte readValue_nil (fun _ => readValue_brace) ?_
      have joined := (reads_members reads enough).map fun members =>
        Json.object (Dictionary.ofPairs members)
      exact .congr readObject_nil (fun _ => readObject_quote) joined

theorem reads_word {head : UInt8} {word : Bytes} (text : written value = head :: word)
    (takes : ∀ fuel rest,
      readValue (fuel + 1) depth (head :: rest) = readLiteral value.reread word rest)
    (shows : value.isNumber = false) : ReadsValue depth value := by
  refine readsValue_of_succ (text ▸ List.cons_ne_nil head word) fun bound fuel _ => ?_
  rw [text, shows]
  exact .byte readValue_nil (takes _) (reads_literal word)

/-- Whatever is written from a value is read, floating-point numbers as the
numbers that their texts are read as. -/
theorem reads_value (printable : Printable depth value) : ReadsValue depth value := by
  induction printable with
  | null =>
      refine reads_word rfl (fun fuel rest => ?_) rfl
      rw [readValue]
      rfl
  | bool value =>
      cases value with
      | false =>
          refine reads_word rfl (fun fuel rest => ?_) rfl
          rw [readValue]
          rfl
      | true =>
          refine reads_word rfl (fun fuel rest => ?_) rfl
          rw [readValue]
          rfl
  | @integer _ number low high =>
      cases number with
      | ofNat number => exact reads_natural (Int.ofNat_le.mp high)
      | negSucc number => exact reads_negative (by omega)
  | float finite => exact reads_float finite
  | string text => exact reads_text
  | array each reads => exact reads_array each reads
  | object _ reads => exact reads_object reads

end SwitchShell.Json
