import TinyDocker.Core.Safety

/-!
# The start time in `/proc/PID/stat` (`core/safety.c`, `docker/status_info.c`)

A line of `/proc/PID/stat` is `pid (name) state ...`, and the start time is its field 22: the
twentieth behind the name.  The name is chosen by the process and may hold parentheses and blanks.

Principal results: `start_time_of_line` — the name does not matter to what is read;
`readStartTime_line` — the same through `fgets`, for a line that fits its buffer.
-/

set_option autoImplicit false

namespace TinyDocker

open CText

/-- The text after the last `c`; `none` when `strrchr` finds nothing. -/
def afterLast (c : Char) : Text → Option Text
  | [] => none
  | x :: xs =>
    match afterLast c xs with
    | some rest => some rest
    | none => if x = c then some xs else none

/-- The delimiters `" \t\r\n"`. -/
def isFieldSeparator (c : Char) : Bool := c == ' ' || c == '\t' || c == '\r' || c == '\n'

/-- The text behind `") "`: the last closing parenthesis, which must come after the first opening one. -/
def fieldsText (statLine : Text) : Option Text :=
  match cut '(' statLine with
  | none => none
  | some (_, behind) =>
    match afterLast ')' behind with
    | some (' ' :: fields) => some fields
    | _ => none

/-- `td_parse_proc_stat_start_time`: the result, and what `*start_time` holds afterwards. -/
def tdParseProcStatStartTime (statLine : Text) (startTime : Nat) : Except String Unit × Nat :=
  match fieldsText statLine with
  | none => (.error "malformed /proc stat record", startTime)
  | some fields =>
    match (tokens isFieldSeparator fields)[19]? with
    | none => (.error "process start time field is missing", startTime)
    | some token =>
      match strtoull token with
      | some (parsed, []) => (.ok (), parsed)
      | _ => (.error "invalid process start time", startTime)

example : tdParseProcStatStartTime "broken".toList 0 = (.error "malformed /proc stat record", 0) := rfl

/-! ## The fields of a line -/

theorem afterLast_eq_none {c : Char} : ∀ {s : Text}, c ∉ s → afterLast c s = none
  | [], _ => rfl
  | x :: s, h => by
    rw [List.mem_cons, not_or] at h
    rw [afterLast, afterLast_eq_none h.2]
    exact if_neg (Ne.symm h.1)

theorem afterLast_append {c : Char} {b : Text} (hb : c ∉ b) : ∀ a : Text,
    afterLast c (a ++ c :: b) = some b
  | [] => by
    rw [List.nil_append, afterLast, afterLast_eq_none hb]
    exact if_pos rfl
  | x :: a => by rw [List.cons_append, afterLast, afterLast_append hb a]

/-- A field of the line behind the name. -/
structure IsField (f : Text) : Prop where
  ne : f ≠ []
  blank : ∀ c ∈ f, isFieldSeparator c = false
  paren : ')' ∉ f

/-- `pid (name) f1 f2 ...`; `tail` is what ends the line. -/
def statLine (pid : Nat) (name : Text) (fields : List Text) (tail : Text) : Text :=
  Nat.toDigits 10 pid ++ ' ' :: '(' :: (name ++ ')' :: (fields.flatMap (' ' :: ·) ++ tail))

section Line

variable (pid : Nat) (name : Text) {tail : Text} {fields : List Text}

/-- The parser splits at the parentheses around the name, whatever the name holds. -/
theorem afterLast_statLine (hfields : ∀ f ∈ fields, IsField f)
    (htail : ∀ c ∈ tail, isFieldSeparator c = true) :
    cut '(' (statLine pid name fields tail) = some (Nat.toDigits 10 pid ++ [' '],
      name ++ ')' :: (fields.flatMap (' ' :: ·) ++ tail)) ∧
    afterLast ')' (name ++ ')' :: (fields.flatMap (' ' :: ·) ++ tail)) =
      some (fields.flatMap (' ' :: ·) ++ tail) := by
  have hopen : '(' ∉ Nat.toDigits 10 pid ++ [' '] := by
    rw [List.mem_append, not_or]
    exact ⟨fun h => absurd (isDigit_toDigits h) (by decide), by decide⟩
  have hclose : ')' ∉ fields.flatMap (' ' :: ·) ++ tail := by
    rw [List.mem_append, not_or, List.mem_flatMap]
    refine ⟨?_, fun h => absurd (htail _ h) (by decide)⟩
    rintro ⟨f, hf, hc⟩
    rcases List.mem_cons.1 hc with hc | hc
    · exact absurd hc (by decide)
    · exact (hfields f hf).paren hc
  refine ⟨?_, afterLast_append hclose name⟩
  have hcut := cut_append hopen (name ++ ')' :: (fields.flatMap (' ' :: ·) ++ tail))
  rw [List.append_assoc] at hcut
  exact hcut

/-- The text behind the name splits into the fields. -/
theorem tokens_fields {f : Text} (hfields : ∀ g ∈ f :: fields, IsField g)
    (htail : ∀ c ∈ tail, isFieldSeparator c = true) :
    tokens isFieldSeparator (f ++ fields.flatMap (' ' :: ·) ++ tail) = f :: fields := by
  have hwords : tokens isFieldSeparator (f ++ fields.flatMap (' ' :: ·)) = f :: fields :=
    tokens_words rfl fun g hg => ⟨(hfields g hg).ne, (hfields g hg).blank⟩
  cases tail with
  | nil => rw [List.append_nil, hwords]
  | cons x tail =>
    rw [tokens_append (htail x List.mem_cons_self), hwords,
      tokens_eq_nil.2 fun c hc => htail c (List.mem_cons_of_mem _ hc), List.append_nil]

/-- What the parser does with a line that has a field. -/
theorem fieldsText_statLine {f : Text} (hfields : ∀ g ∈ f :: fields, IsField g)
    (htail : ∀ c ∈ tail, isFieldSeparator c = true) :
    fieldsText (statLine pid name (f :: fields) tail) =
      some (f ++ fields.flatMap (' ' :: ·) ++ tail) := by
  obtain ⟨hcut, hlast⟩ := afterLast_statLine pid name hfields htail
  unfold fieldsText
  rw [hcut]
  simp only
  rw [hlast, List.flatMap_cons]
  rfl

end Line

theorem strtoull_digits {t : Text} {n : Nat} (hne : t ≠ []) (hdigits : ∀ c ∈ t, c.isDigit = true)
    (hn : Nat.ofDigitChars 10 t 0 = n) (hlt : n < 2 ^ 64) : strtoull t = some (n, []) :=
  strtoull_iff.2 (Or.inl ⟨⟨[], [], t, rfl, by simp, Or.inl rfl, hne, hdigits, hn⟩, hlt⟩)

/-- The twentieth field is what the parser returns. -/
theorem parse_statLine {pid : Nat} {name : Text} {fields : List Text} {tail : Text} {t : Text} {n out : Nat}
    (hfields : ∀ f ∈ fields, IsField f) (htail : ∀ c ∈ tail, isFieldSeparator c = true)
    (ht : fields[19]? = some t) (hdigits : ∀ c ∈ t, c.isDigit = true) (hn : Nat.ofDigitChars 10 t 0 = n)
    (hlt : n < 2 ^ 64) : tdParseProcStatStartTime (statLine pid name fields tail) out = (.ok (), n) := by
  cases fields with
  | nil => cases ht
  | cons f fields =>
    have hread := strtoull_digits (hfields t (List.mem_of_getElem? ht)).ne hdigits hn hlt
    unfold tdParseProcStatStartTime
    rw [fieldsText_statLine pid name hfields htail]
    simp only
    rw [tokens_fields hfields htail, ht]
    simp only
    rw [hread]

/-- **Start-time extraction is immune to the command name.**  On `pid (name) f1 f2 ...` the parser
returns the value of the twentieth field if that is a decimal number below `2^64`; with fewer fields it
fails and leaves the output unchanged. -/
theorem start_time_of_line (pid : Nat) (name : Text) (fields : List Text) (tail : Text) (out : Nat)
    (hfields : ∀ f ∈ fields, IsField f) (htail : ∀ c ∈ tail, isFieldSeparator c = true) :
    (∀ t n, fields[19]? = some t → (∀ c ∈ t, c.isDigit = true) → Nat.ofDigitChars 10 t 0 = n →
      n < 2 ^ 64 → tdParseProcStatStartTime (statLine pid name fields tail) out = (.ok (), n)) ∧
    (fields.length < 20 →
      ∃ e, tdParseProcStatStartTime (statLine pid name fields tail) out = (.error e, out)) := by
  refine ⟨fun t n ht hdigits hn hlt => parse_statLine hfields htail ht hdigits hn hlt, fun hlen => ?_⟩
  cases fields with
  | nil =>
    obtain ⟨hcut, hlast⟩ := afterLast_statLine pid name hfields htail
    unfold tdParseProcStatStartTime fieldsText
    rw [hcut]
    simp only
    rw [hlast, List.flatMap_nil, List.nil_append]
    cases tail with
    | nil => exact ⟨_, rfl⟩
    | cons x rest =>
      -- only a blank can follow the name
      have hnone : tokens isFieldSeparator rest = [] :=
        tokens_eq_nil.2 fun c hc => htail c (List.mem_cons_of_mem _ hc)
      by_cases hx : x = ' '
      · rw [hx]
        simp only
        rw [hnone]
        exact ⟨_, rfl⟩
      · split
        · exact ⟨_, rfl⟩
        · rename_i heq
          split at heq
          · rename_i hblank
            cases hblank
            exact absurd rfl hx
          · cases heq
  | cons f fields =>
    have hmissing : (f :: fields)[19]? = none := List.getElem?_eq_none (by omega)
    unfold tdParseProcStatStartTime
    rw [fieldsText_statLine pid name hfields htail]
    simp only
    rw [tokens_fields hfields htail, hmissing]
    exact ⟨_, rfl⟩

/-- `test_proc_stat_parser`'s command name, and one that looks like further fields. -/
def sampleFields : List Text :=
  (List.replicate 19 "7".toList) ++ [ "987654".toList, "20".toList]

theorem sampleFields_ok : ∀ f ∈ sampleFields, IsField f := by
  intro f hf
  simp only [sampleFields, List.mem_append, List.mem_replicate, List.mem_cons, List.not_mem_nil,
    or_false] at hf
  rcases hf with ⟨-, rfl⟩ | rfl | rfl <;> exact ⟨by decide, forall_mem_of_all (by decide), by decide⟩

theorem start_time_of_hostile_name :
    tdParseProcStatStartTime (statLine 4242 "a) S 1 (b".toList sampleFields "\n".toList) 0 =
      (.ok (), 987654) ∧
    ∃ e, tdParseProcStatStartTime (statLine 4242 "a) S 1 (b".toList (sampleFields.take 19) "\n".toList) 0 =
      (.error e, 0) :=
  ⟨(start_time_of_line 4242 "a) S 1 (b".toList sampleFields "\n".toList 0 sampleFields_ok
      (forall_mem_of_all (by decide))).1 "987654".toList 987654 (by decide) (forall_mem_of_all (by decide))
      (by decide) (by decide),
    (start_time_of_line 4242 "a) S 1 (b".toList (sampleFields.take 19) "\n".toList 0
      (fun f hf => sampleFields_ok f (List.mem_of_mem_take hf)) (forall_mem_of_all (by decide))).2 (by decide)⟩

/-! ## Reading the line -/

/-- `fgets` into a buffer of `size` bytes: up to a newline, which is kept, and at most `size - 1` bytes. -/
def fgets (size : Nat) (file : Text) : Option Text :=
  if file = [] then none
  else match cut '\n' file with
    | some (line, _) => some ((line ++ ['\n']).take (size - 1))
    | none => some (file.take (size - 1))

/-- `read_process_start_time` of `status_info.c`; `file` is `/proc/PID/stat`, if it can be opened. -/
def readStartTime (pid : Int) (file : Option Text) (startTime : Nat) : Int × Nat :=
  if pid ≤ 0 then (-1, startTime)
  else match file.bind (fgets 4096) with
    | none => (-1, startTime)
    | some line =>
      match tdParseProcStatStartTime line 0 with
      | (.ok (), parsed) => (0, parsed)
      | (.error _, _) => (-1, startTime)

/-- A line that fits the buffer is read whole: the start time of a process whose name holds no newline. -/
theorem readStartTime_line {pid : Nat} {name : Text} {fields : List Text} {t : Text} {n out : Nat}
    (hpid : 0 < pid) (hname : '\n' ∉ name) (hfields : ∀ f ∈ fields, IsField f)
    (hlen : (statLine pid name fields ['\n']).length < 4096) (ht : fields[19]? = some t)
    (hdigits : ∀ c ∈ t, c.isDigit = true) (hn : Nat.ofDigitChars 10 t 0 = n) (hlt : n < 2 ^ 64) :
    readStartTime pid (some (statLine pid name fields ['\n'])) out = (0, n) := by
  have hline : fgets 4096 (statLine pid name fields ['\n']) = some (statLine pid name fields ['\n']) := by
    have hsplit : statLine pid name fields ['\n'] = statLine pid name fields [] ++ '\n' :: [] := by
      simp only [statLine, List.append_assoc, List.cons_append, List.append_nil]
    have hclean : '\n' ∉ statLine pid name fields [] := by
      simp only [statLine, List.append_nil, List.mem_append, List.mem_cons, List.mem_flatMap, not_or,
        not_exists, not_and]
      refine ⟨fun h => absurd (isDigit_toDigits h) (by decide), by decide, by decide, hname, by decide,
        fun f hf => ⟨by decide, fun h => ?_⟩⟩
      exact absurd ((hfields f hf).blank _ h) (by decide)
    have hne : statLine pid name fields ['\n'] ≠ [] := by simp [statLine]
    unfold fgets
    rw [if_neg hne, hsplit, cut_append hclean]
    simp only
    rw [← hsplit, List.take_of_length_le (by omega)]
  unfold readStartTime
  rw [if_neg (by omega), Option.bind_some, hline]
  simp only
  rw [parse_statLine hfields (forall_mem_of_all (by decide)) ht hdigits hn hlt]

end TinyDocker
