import SwitchShell.Proofs.Text.Numeral
import SwitchShell.Wire.Address

namespace SwitchShell.Wire.Address

/-! Which texts are addresses.

The method ends at the first colon and the port begins after the last one, so that a
host or a path may have colons of its own.  What is printed is read again.
-/

variable {mark : Char} {list before after : List Char} {text host path method rest port : String}
  {number : Nat} {address : Address}

/-- The text is one way to write the address. -/
inductive Spells : String → Address → Prop where
  | unix {path : String} (some : path ≠ "") : Spells ("unix:" ++ path) (.unix path)
  | tcp {host port : String} {number : Nat} (some : host ≠ "")
      (numeral : Text.Numeral port.toList number) (small : number ≤ maxPort) :
      Spells ("tcp:" ++ host ++ ":" ++ port) (.tcp host number)

theorem splitFirst?_append (absent : mark ∉ before) :
    splitFirst? mark (before ++ mark :: after) = some (before, after) := by
  induction before with
  | nil => exact if_pos rfl
  | cons c before ih =>
      obtain ⟨other, later⟩ := not_or.mp (mt List.mem_cons.mpr absent)
      rw [List.cons_append, splitFirst?, if_neg (Ne.symm other), ih later]
      rfl

theorem splitFirst?_eq_none (absent : mark ∉ list) : splitFirst? mark list = none := by
  induction list with
  | nil => rfl
  | cons c list ih =>
      obtain ⟨other, later⟩ := not_or.mp (mt List.mem_cons.mpr absent)
      rw [splitFirst?, if_neg (Ne.symm other), ih later]
      rfl

theorem splitLast?_eq_none (absent : mark ∉ list) : splitLast? mark list = none := by
  induction list with
  | nil => rfl
  | cons c list ih =>
      obtain ⟨other, later⟩ := not_or.mp (mt List.mem_cons.mpr absent)
      simp only [splitLast?, ih later, if_neg (Ne.symm other)]

theorem splitLast?_append (absent : mark ∉ after) :
    splitLast? mark (before ++ mark :: after) = some (before, after) := by
  induction before with
  | nil => simp only [List.nil_append, splitLast?, splitLast?_eq_none absent, if_true]
  | cons c before ih => simp only [List.cons_append, splitLast?, ih]

theorem exists_last (member : mark ∈ list) :
    ∃ before after, list = before ++ mark :: after ∧ mark ∉ after := by
  obtain ⟨after, before, divided, absent⟩ :=
    List.eq_append_cons_of_mem (List.mem_reverse.mpr member)
  refine ⟨before.reverse, after.reverse, ?_, mt List.mem_reverse.mp absent⟩
  rw [← List.reverse_reverse list, divided]
  simp

theorem parse_of_absent (absent : ':' ∉ text.toList) :
    parse text = .error (.settings (.invalidServer text)) := by
  rw [parse, splitFirst?_eq_none absent]

theorem splitFirst?_text (plain : ':' ∉ method.toList) (rest : String) :
    splitFirst? ':' (method ++ ":" ++ rest).toList = some (method.toList, rest.toList) := by
  have divided : (method ++ ":" ++ rest).toList = method.toList ++ ':' :: rest.toList := by simp
  rw [divided, splitFirst?_append plain]

theorem parse_other (plain : ':' ∉ method.toList) (notTcp : method ≠ "tcp")
    (notUnix : method ≠ "unix") (rest : String) :
    parse (method ++ ":" ++ rest) = .error (.settings (.unsupportedMethod method)) := by
  simp only [parse, splitFirst?_text plain, String.ofList_toList, if_neg notTcp, if_neg notUnix]

theorem parse_unix (path : String) :
    parse ("unix:" ++ path) =
      if path = "" then .error (.settings (.invalidServer ("unix:" ++ path)))
      else .ok (.unix path) := by
  have divided : splitFirst? ':' ("unix:" ++ path).toList = some ("unix".toList, path.toList) :=
    @splitFirst?_text "unix" (by decide) path
  rw [parse, divided]
  simp

theorem splitFirst?_tcp (rest : String) :
    splitFirst? ':' ("tcp:" ++ rest).toList = some ("tcp".toList, rest.toList) :=
  @splitFirst?_text "tcp" (by decide) rest

theorem parse_tcp_of_absent (absent : ':' ∉ rest.toList) :
    parse ("tcp:" ++ rest) = .error (.settings (.invalidServer ("tcp:" ++ rest))) := by
  simp only [parse, splitFirst?_tcp, String.ofList_toList, if_true, splitLast?_eq_none absent]

theorem parse_tcp (plain : ':' ∉ port.toList) (host : String) :
    parse ("tcp:" ++ host ++ ":" ++ port) =
      match Text.unsigned? maxPort port with
      | none => .error (.settings (.invalidPort ("tcp:" ++ host ++ ":" ++ port)))
      | some number =>
          if host = "" then .error (.settings (.invalidServer ("tcp:" ++ host ++ ":" ++ port)))
          else .ok (.tcp host number) := by
  have method : splitFirst? ':' ("tcp:" ++ host ++ ":" ++ port).toList =
      some ("tcp".toList, (host ++ ":" ++ port).toList) := by
    rw [String.append_assoc, String.append_assoc, splitFirst?_tcp, String.append_assoc]
  have divided : (host ++ ":" ++ port).toList = host.toList ++ ':' :: port.toList := by simp
  rw [parse, method, divided]
  simp only [String.ofList_toList, if_true, splitLast?_append plain]
  cases Text.unsigned? maxPort port with
  | none => rfl
  | some number => by_cases some : host = "" <;> simp [some]

/-- The forms that reading tells apart. -/
inductive Form : String → Prop where
  | plain {text : String} (absent : ':' ∉ text.toList) : Form text
  | unix (path : String) : Form ("unix:" ++ path)
  | portless {rest : String} (absent : ':' ∉ rest.toList) : Form ("tcp:" ++ rest)
  | tcp (host : String) {port : String} (last : ':' ∉ port.toList) :
      Form ("tcp:" ++ host ++ ":" ++ port)
  | other {method : String} (first : ':' ∉ method.toList) (notTcp : method ≠ "tcp")
      (notUnix : method ≠ "unix") (rest : String) : Form (method ++ ":" ++ rest)

theorem form (text : String) : Form text := by
  by_cases colon : ':' ∈ text.toList
  · obtain ⟨before, after, divided, first⟩ := List.eq_append_cons_of_mem colon
    obtain rfl : text = String.ofList before ++ ":" ++ String.ofList after := by
      rw [← String.toList_inj]
      simp [divided]
    have first : ':' ∉ (String.ofList before).toList := by rwa [String.toList_ofList]
    generalize String.ofList before = method at first
    generalize String.ofList after = rest
    by_cases tcp : method = "tcp"
    · subst tcp
      by_cases second : ':' ∈ rest.toList
      · obtain ⟨host, port, divided, last⟩ := exists_last second
        have last : ':' ∉ (String.ofList port).toList := by rwa [String.toList_ofList]
        have whole : "tcp" ++ ":" ++ rest =
            "tcp:" ++ String.ofList host ++ ":" ++ String.ofList port := by
          rw [← String.toList_inj]
          simp [divided]
        rw [whole]
        exact .tcp _ last
      · exact .portless second
    · by_cases unix : method = "unix"
      · subst unix
        exact .unix rest
      · exact .other first tcp unix rest
  · exact .plain colon

/-- A port has no colon, so that the last colon of an address stands before it. -/
theorem colon_not_mem (numeral : Text.Numeral port.toList number) : ':' ∉ port.toList :=
  numeral.not_mem rfl (by decide)

theorem parse_eq_ok_iff : parse text = .ok address ↔ Spells text address := by
  constructor
  · intro read
    cases form text with
    | plain absent =>
        rw [parse_of_absent absent] at read
        contradiction
    | unix path =>
        rw [parse_unix] at read
        split at read
        · contradiction
        · rename_i some
          cases read
          exact .unix some
    | portless absent =>
        rw [parse_tcp_of_absent absent] at read
        contradiction
    | tcp host last =>
        rw [parse_tcp last] at read
        split at read
        · contradiction
        · rename_i number numbered
          split at read
          · contradiction
          · rename_i some
            cases read
            obtain ⟨numeral, small⟩ := Text.unsigned?_eq_some_iff.mp numbered
            exact .tcp some numeral small
    | other first notTcp notUnix rest =>
        rw [parse_other first notTcp notUnix] at read
        contradiction
  · intro spells
    cases spells with
    | unix some => rw [parse_unix, if_neg some]
    | tcp some numeral small =>
        rw [parse_tcp (colon_not_mem numeral), Text.unsigned?_eq_some_iff.mpr ⟨numeral, small⟩]
        exact if_neg some

theorem parse_eq_ok_or_settings (text : String) :
    (∃ address, parse text = .ok address) ∨ ∃ trouble, parse text = .error (.settings trouble) := by
  cases form text with
  | plain absent => exact .inr ⟨_, parse_of_absent absent⟩
  | unix path =>
      rw [parse_unix]
      split
      · exact .inr ⟨_, rfl⟩
      · exact .inl ⟨_, rfl⟩
  | portless absent => exact .inr ⟨_, parse_tcp_of_absent absent⟩
  | tcp host last =>
      rw [parse_tcp last]
      split
      · exact .inr ⟨_, rfl⟩
      · split
        · exact .inr ⟨_, rfl⟩
        · exact .inl ⟨_, rfl⟩
  | other first notTcp notUnix rest => exact .inr ⟨_, parse_other first notTcp notUnix rest⟩

/-- An address is printed as one of its written forms. -/
theorem Spells.render (spells : Spells text address) : Spells address.render address := by
  cases spells with
  | unix some => exact .unix some
  | tcp some numeral small => exact .tcp some (Text.numeral_toString _) small

/-- The texts that are read as addresses are their written forms; all others are faults
of the settings, among them a text without a colon, one without a host and one with
another method.  Whatever is read is printed as a text that is read as the same. -/
theorem parse_grammar_and_render :
    (∀ text address, parse text = .ok address ↔ Spells text address) ∧
      (∀ text, (∀ address, ¬ Spells text address) →
        ∃ trouble, parse text = .error (.settings trouble)) ∧
      (∀ text, ':' ∉ text.toList → parse text = .error (.settings (.invalidServer text))) ∧
      (∀ port, ':' ∉ port.toList →
        ∃ trouble, parse ("tcp::" ++ port) = .error (.settings trouble)) ∧
      (∀ method rest, ':' ∉ method.toList → method ≠ "tcp" → method ≠ "unix" →
        parse (method ++ ":" ++ rest) = .error (.settings (.unsupportedMethod method))) ∧
      ∀ text address, parse text = .ok address → parse address.render = .ok address := by
  refine ⟨fun _ _ => parse_eq_ok_iff, fun text none => ?_, fun _ => parse_of_absent,
    fun port last => ?_, fun method rest first notTcp notUnix => parse_other first notTcp notUnix rest,
    fun text address read => parse_eq_ok_iff.mpr (parse_eq_ok_iff.mp read).render⟩
  · rcases parse_eq_ok_or_settings text with ⟨address, read⟩ | failed
    · exact absurd (parse_eq_ok_iff.mp read) (none address)
    · exact failed
  · have hostless := parse_tcp last ""
    cases numbered : Text.unsigned? maxPort port with
    | none =>
        rw [numbered] at hostless
        exact ⟨_, hostless⟩
    | some number =>
        rw [numbered] at hostless
        exact ⟨_, hostless⟩

/-- An address whose host has colons and whose port has a sign and a zero in front, and
texts that are no addresses. -/
theorem colons_read :
    (Spells "tcp:fe80::1:+06640" (.tcp "fe80::1" 6640) ∧
        parse "tcp:fe80::1:+06640" = .ok (.tcp "fe80::1" 6640) ∧
        parse "tcp:fe80::1:6640" = .ok (.tcp "fe80::1" 6640)) ∧
      ((∀ address, ¬ Spells "unix:" address) ∧
        ∃ trouble, parse "unix:" = .error (.settings trouble)) ∧
      (':' ∉ "localhost".toList ∧
        parse "localhost" = .error (.settings (.invalidServer "localhost"))) ∧
      (':' ∉ "6640".toList ∧ ∃ trouble, parse "tcp::6640" = .error (.settings trouble)) ∧
      (':' ∉ "ssl".toList ∧ "ssl" ≠ "tcp" ∧ "ssl" ≠ "unix" ∧
        parse "ssl:switch:6640" = .error (.settings (.unsupportedMethod "ssl"))) := by
  have digits : Text.Digits "06640".toList 6640 :=
    ⟨by decide, List.all_eq_true.mp rfl, by decide⟩
  have spells : Spells "tcp:fe80::1:+06640" (.tcp "fe80::1" 6640) :=
    @Spells.tcp "fe80::1" "+06640" 6640 (by decide) (.plus digits) (by decide)
  obtain ⟨accepts, refuses, plain, hostless, other, prints⟩ := parse_grammar_and_render
  have read := (accepts _ _).mpr spells
  have pathless : ∀ address, ¬ Spells "unix:" address := fun address spells => by
    have accepted := (accepts _ _).mpr spells
    have refused : parse "unix:" = .error (.settings (.invalidServer "unix:")) := rfl
    rw [refused] at accepted
    contradiction
  exact ⟨⟨spells, read, prints _ _ read⟩, ⟨pathless, refuses _ pathless⟩,
    ⟨by decide, plain _ (by decide)⟩, ⟨by decide, hostless "6640" (by decide)⟩,
    ⟨by decide, by decide, by decide, other "ssl" "switch:6640" (by decide) (by decide) (by decide)⟩⟩

end SwitchShell.Wire.Address
