import TinyDocker.Core.StatusCodec

/-!
# Reading cgroup files (`core/cgroup_parse.c`, `docker/cgroup.c`)

`tdParseCgroupStat` looks up a key of `cpu.stat`; `tdParseCgroupPidList` reads `cgroup.procs`, which
`getContainerProcessesId` has read into a buffer of 32 bytes for each PID there is room for.

Principal results: `tdParseCgroupStat_ok` — the value returned is the second word of a line whose first word
is the key; `process_list_complete` — the list of a cgroup is returned whole and in order, or not at all.
-/

set_option autoImplicit false

namespace TinyDocker

open CText

/-! ## `td_parse_cgroup_stat` -/

/-- One `%Ns` of `sscanf`: white space is skipped, then up to `n` other characters are taken. -/
def scanWord (n : Nat) (s : Text) : Option (Text × Text) :=
  let start := s.dropWhile isSpace
  if start = [] then none
  else
    let word := (start.takeWhile fun c => !isSpace c).take n
    some (word, start.drop word.length)

/-- `sscanf(line, "%127s %127s %1s", key, parsed_value, extra) == 2`: the two words. -/
def scanTwoWords (line : Text) : Option (Text × Text) :=
  match scanWord 127 line with
  | none => none
  | some (key, rest) =>
    match scanWord 127 rest with
    | none => none
    | some (value, rest) => if (scanWord 1 rest).isNone then some (key, value) else none

/-- The value on the first line with the key and one value. -/
def statField (wantedKey : Text) : List Text → Option Text
  | [] => none
  | line :: rest =>
    match scanTwoWords line with
    | some (key, value) => if key = wantedKey then some value else statField wantedKey rest
    | none => statField wantedKey rest

/-- `td_parse_cgroup_stat`: the text stored in `value`. -/
def tdParseCgroupStat (contents wantedKey : Text) (valueSize : Nat) : Except String Text :=
  if wantedKey = [] ∨ valueSize = 0 then .error "invalid cgroup stat input"
  else match statField wantedKey (tokens (· == '\n') contents) with
    | none => .error ("cgroup stat key not found: " ++ String.ofList wantedKey)
    | some value =>
      match strtoull value with
      | some (_, []) => if valueSize ≤ value.length then .error "cgroup stat value is too long" else .ok value
      | _ => .error ("cgroup stat " ++ String.ofList wantedKey ++ " is not numeric")

/-- An accepted value is the field of its key, reads as a number and fits the buffer. -/
theorem tdParseCgroupStat_ok {contents wantedKey value : Text} {valueSize : Nat} :
    tdParseCgroupStat contents wantedKey valueSize = .ok value ↔
      wantedKey ≠ [] ∧ statField wantedKey (tokens (· == '\n') contents) = some value ∧
        (∃ n, strtoull value = some (n, [])) ∧ value.length < valueSize := by
  unfold tdParseCgroupStat
  split
  · rename_i hbad
    refine ⟨fun h => (by cases h), fun ⟨hkey, _, _, hlen⟩ => ?_⟩
    rcases hbad with hbad | hbad
    · exact absurd hbad hkey
    · omega
  rename_i hgood
  simp only [not_or] at hgood
  cases hfield : statField wantedKey (tokens (· == '\n') contents) with
  | none =>
    refine ⟨fun h => (by cases h), fun ⟨_, h, _⟩ => (by cases h)⟩
  | some text =>
    simp only [Option.some.injEq]
    constructor
    · intro h
      split at h
      · rename_i n hread
        split at h
        · cases h
        · rename_i hlen
          cases h
          exact ⟨hgood.1, rfl, ⟨n, hread⟩, Nat.not_le.1 hlen⟩
      · cases h
    · rintro ⟨-, rfl, ⟨n, hread⟩, hlen⟩
      rw [hread]
      simp only
      rw [if_neg (Nat.not_le.2 hlen)]

example : tdParseCgroupStat "user_usec 4\nusage_usec 12345\n".toList "usage_usec".toList 32 =
    .ok "12345".toList := by decide +kernel

/-! ## `td_parse_cgroup_pid_list` -/

/-- The loop over the lines; the length of the list is `count`. -/
def parsePids (capacity : Nat) : List Int → List Text → Except String (List Int)
  | pids, [] => .ok pids
  | pids, line :: rest =>
    if capacity ≤ pids.length then
      .error ("cgroup pid list exceeds capacity " ++ toString capacity)
    else match tdParseLong line 1 INT_MAX with
      | .error e => .error e
      | .ok parsed => parsePids capacity (pids ++ [parsed]) rest

/-- `td_parse_cgroup_pid_list`: the PIDs in `pid_list`, `*pid_count` of them. -/
def tdParseCgroupPidList (contents : Text) (capacity : Nat) : Except String (List Int) :=
  if capacity = 0 then .error "invalid cgroup pid list input"
  else parsePids capacity [] (tokens (· == '\n') contents)

theorem tdParseCgroupPidList_eq {capacity : Nat} (hpos : 1 ≤ capacity) (contents : Text) :
    tdParseCgroupPidList contents capacity = parsePids capacity [] (tokens (· == '\n') contents) :=
  if_neg (by omega)

/-- A list is read exactly when every line is a PID and there is room for all. -/
theorem parsePids_ok {capacity : Nat} : ∀ {lines : List Text} {pids out : List Int},
    parsePids capacity pids lines = .ok out ↔
      ∃ read : List Int, out = pids ++ read ∧ List.Forall₂ (fun l n => tdParseLong l 1 INT_MAX = .ok n) lines read ∧
        (lines ≠ [] → pids.length + lines.length ≤ capacity)
  | [], pids, out => by
    simp only [parsePids, Except.ok.injEq, List.forall₂_nil_left_iff]
    constructor
    · rintro rfl
      exact ⟨[], (List.append_nil _).symm, rfl, fun h => absurd rfl h⟩
    · rintro ⟨read, rfl, rfl, -⟩
      rw [List.append_nil]
  | line :: rest, pids, out => by
    unfold parsePids
    split
    · rename_i hfull
      refine ⟨fun h => (by cases h), fun ⟨read, _, _, hroom⟩ => ?_⟩
      have := hroom (List.cons_ne_nil line rest)
      rw [List.length_cons] at this
      omega
    rename_i hroom
    cases hparse : tdParseLong line 1 INT_MAX with
    | error e =>
      refine ⟨fun h => (by cases h), fun ⟨read, _, hread, _⟩ => ?_⟩
      cases hread with
      | cons hfirst _ =>
        rw [hparse] at hfirst
        cases hfirst
    | ok parsed =>
      have ih := @parsePids_ok capacity rest (pids ++ [parsed]) out
      simp only
      rw [ih]
      constructor
      · rintro ⟨read, rfl, hread, hcap⟩
        refine ⟨parsed :: read, by rw [List.append_assoc, List.singleton_append], .cons hparse hread,
          fun _ => ?_⟩
        rw [List.length_cons]
        cases rest with
        | nil =>
          rw [List.length_nil]
          omega
        | cons l ls =>
          have := hcap (List.cons_ne_nil l ls)
          rw [List.length_append, List.length_singleton] at this
          omega
      · rintro ⟨read, rfl, hread, hcap⟩
        cases hread with
        | cons hfirst hrest =>
          rw [hparse, Except.ok.injEq] at hfirst
          subst hfirst
          refine ⟨_, by rw [List.append_assoc, List.singleton_append], hrest, fun _ => ?_⟩
          have := hcap (List.cons_ne_nil line rest)
          rw [List.length_cons] at this
          rw [List.length_append, List.length_singleton]
          omega

/-! ## `get_container_processes_id` -/

def SIZE_MAX : Nat := 2 ^ 64 - 1

/-- `fread` of at most `n` bytes, and `feof` after it. -/
def fread (n : Nat) (file : Text) : Text × Bool := (file.take n, decide (file.length < n))

/-- The bytes of a buffer that a C string is made of. -/
def cString (buffer : Text) : Text := buffer.takeWhile fun c => decide (c ≠ '\x00')

/-- `get_container_processes_id`: the PIDs, or `none` for -1; `file` is `cgroup.procs`, if it can be
opened. -/
def getContainerProcessesId (capacity : Nat) (file : Option Text) : Option (List Int) :=
  match file with
  | none => none
  | some file =>
    if capacity = 0 ∨ (SIZE_MAX - 1) / 32 < capacity then none
    else
      let used := fread (capacity * 32) file
      if used.2 = false ∧ used.1.length = capacity * 32 then none
      else match tdParseCgroupPidList (cString used.1) capacity with
        | .error _ => none
        | .ok pids => if INT_MAX < pids.length then none else some pids

/-- What the kernel writes to `cgroup.procs`. -/
def procsText (pids : List Nat) : Text := pids.flatMap fun pid => Nat.toDigits 10 pid ++ ['\n']

/-- A file that is not read whole is refused; the rest is parsed up to its first NUL. -/
theorem getContainerProcessesId_eq {capacity : Nat} (hpos : 1 ≤ capacity)
    (hmax : capacity ≤ (SIZE_MAX - 1) / 32) (hint : (capacity : Int) ≤ INT_MAX) (file : Text) :
    getContainerProcessesId capacity (some file) =
      if capacity * 32 ≤ file.length then none
      else (tdParseCgroupPidList (cString file) capacity).toOption := by
  unfold getContainerProcessesId fread
  simp only
  rw [if_neg (by omega)]
  by_cases hlen : capacity * 32 ≤ file.length
  · rw [if_pos hlen, if_pos]
    refine ⟨decide_eq_false (by omega), ?_⟩
    rw [List.length_take]
    omega
  · rw [if_neg hlen, if_neg fun h => hlen (Nat.not_lt.1 (of_decide_eq_false h.1)),
      List.take_of_length_le (by omega)]
    cases hparse : tdParseCgroupPidList (cString file) capacity with
    | error e => rfl
    | ok pids =>
      -- there are at most `capacity` PIDs
      have hfew : pids.length ≤ capacity := by
        rw [tdParseCgroupPidList_eq hpos] at hparse
        obtain ⟨read, hpids, hread, hroom⟩ := parsePids_ok.1 hparse
        rw [List.nil_append] at hpids
        rw [hpids, ← hread.length_eq]
        by_cases hnil : tokens (· == '\n') (cString file) = []
        · rw [hnil]
          exact Nat.zero_le _
        · have := hroom hnil
          rw [List.length_nil] at this
          omega
      simp only
      rw [if_neg (by omega)]
      rfl

theorem toDigits_int {n : Nat} (h : (n : Int) ≤ INT_MAX) : (Nat.toDigits 10 n).length ≤ 10 := by
  have hlt : n < 2 ^ 31 := by
    simp only [INT_MAX] at h
    omega
  exact (Nat.length_toDigits_le_iff (by decide) (by decide)).2 (Nat.lt_of_lt_of_le hlt (by decide))

theorem procsText_length {pids : List Nat} (h : ∀ p ∈ pids, (p : Int) ≤ INT_MAX) :
    (procsText pids).length ≤ pids.length * 11 := by
  induction pids with
  | nil => exact Nat.zero_le _
  | cons p pids ih =>
    have hp := toDigits_int (h p List.mem_cons_self)
    have hps := ih fun q hq => h q (List.mem_cons_of_mem _ hq)
    rw [procsText] at hps ⊢
    rw [List.flatMap_cons, List.length_append, List.length_append, List.length_singleton,
      List.length_cons]
    omega

theorem cString_procsText (pids : List Nat) : cString (procsText pids) = procsText pids := by
  refine List.takeWhile_eq_self_iff.2 fun c hc => decide_eq_true ?_
  rintro rfl
  obtain ⟨p, -, hc⟩ := List.mem_flatMap.1 hc
  rcases List.mem_append.1 hc with hc | hc
  · exact absurd (isDigit_toDigits hc) (by decide)
  · exact absurd (List.mem_singleton.1 hc) (by decide)

theorem lines_procsText (pids : List Nat) :
    tokens (· == '\n') (procsText pids) = pids.map fun p => Nat.toDigits 10 p := by
  have hpieces : pieces '\n' (procsText pids) = pids.map fun p => Nat.toDigits 10 p := by
    have hflat : procsText pids = (pids.map fun p => Nat.toDigits 10 p).flatMap (· ++ ['\n']) := by
      rw [procsText, List.flatMap_map]
    rw [hflat]
    refine pieces_flatMap fun l hl hc => ?_
    obtain ⟨p, -, rfl⟩ := List.mem_map.1 hl
    exact absurd (isDigit_toDigits hc) (by decide)
  rw [tokens_eq_pieces, hpieces, List.filter_eq_self]
  intro l hl
  obtain ⟨p, -, rfl⟩ := List.mem_map.1 hl
  exact decide_eq_true Nat.toDigits_ne_nil

/-- **Process lists are complete or refused.**  A list of PIDs that the kernel writes is returned whole and
in order if there is room for it, and refused otherwise; and any content is refused that has, up to its
first NUL, a line `td_parse_long` does not accept. -/
theorem process_list_complete (capacity : Nat) (hpos : 1 ≤ capacity)
    (hmax : capacity ≤ (SIZE_MAX - 1) / 32) (hint : (capacity : Int) ≤ INT_MAX) :
    (∀ pids : List Nat, (∀ p ∈ pids, 1 ≤ p ∧ (p : Int) ≤ INT_MAX) →
      getContainerProcessesId capacity (some (procsText pids)) =
        if pids.length ≤ capacity then some (pids.map fun p : Nat => (p : Int)) else none) ∧
    (∀ contents line, line ∈ tokens (· == '\n') (cString contents) →
      (∀ n, tdParseLong line 1 INT_MAX ≠ .ok n) → getContainerProcessesId capacity (some contents) = none) := by
  refine ⟨fun pids hpids => ?_, fun contents line hline hbad => ?_⟩
  · have hread : List.Forall₂ (fun l n => tdParseLong l 1 INT_MAX = .ok n)
        (pids.map fun p => Nat.toDigits 10 p) (pids.map fun p : Nat => (p : Int)) := by
      rw [List.forall₂_map_left_iff, List.forall₂_map_right_iff, List.forall₂_same]
      intro p hp
      have hle := (hpids p hp).2
      simp only [INT_MAX] at hle
      exact tdParseLong_toDigits (by have := (hpids p hp).1; omega) (hpids p hp).2 (by omega)
    rw [getContainerProcessesId_eq hpos hmax hint, cString_procsText, tdParseCgroupPidList_eq hpos,
      lines_procsText]
    split
    · rename_i hlen
      have hbytes := procsText_length fun p hp => (hpids p hp).2
      rw [if_neg (by omega)]
    · split
      · rename_i hroom
        rw [parsePids_ok.2 ⟨_, (List.nil_append _).symm, hread, fun _ => by
          rw [List.length_nil, List.length_map]; omega⟩]
        rfl
      · rename_i hroom
        cases hparse : parsePids capacity [] (pids.map fun p => Nat.toDigits 10 p) with
        | error e => rfl
        | ok out =>
          obtain ⟨read, -, -, hcap⟩ := parsePids_ok.1 hparse
          have hne : pids.map (fun p => Nat.toDigits 10 p) ≠ [] := by
            rintro hnil
            rw [List.map_eq_nil_iff.1 hnil, List.length_nil] at hroom
            omega
          have := hcap hne
          rw [List.length_nil, List.length_map] at this
          omega
  · rw [getContainerProcessesId_eq hpos hmax hint]
    split
    · rfl
    · rw [tdParseCgroupPidList_eq hpos]
      cases hparse : parsePids capacity [] (tokens (· == '\n') (cString contents)) with
      | error e => rfl
      | ok out =>
        obtain ⟨read, -, hread, -⟩ := parsePids_ok.1 hparse
        have hboth : List.Forall₂ (fun l n => (∃ m, tdParseLong l 1 INT_MAX = .ok m) ∧
            tdParseLong l 1 INT_MAX = .ok n) (tokens (· == '\n') (cString contents)) read :=
          hread.imp fun l n h => ⟨⟨n, h⟩, h⟩
        obtain ⟨n, hn⟩ := ((List.forall₂_and_left _ _).1 hboth).1 line hline
        exact absurd hn (hbad n)

theorem process_list_of_two :
    getContainerProcessesId 2 (some (procsText [12, 34])) = some [12, 34] ∧
      getContainerProcessesId 1 (some (procsText [12, 34])) = none :=
  ⟨(process_list_complete 2 (by decide) (by decide) (by decide)).1 [12, 34] (by decide),
    (process_list_complete 1 (by decide) (by decide) (by decide)).1 [12, 34] (by decide)⟩

/-- Behind a NUL byte the file is not looked at: its last line is no PID, and the first one is returned. -/
theorem line_behind_nul_ignored :
    (∃ line ∈ tokens (· == '\n') "1\n\x00\nabc\n".toList, line ≠ [] ∧
      ∀ n, tdParseLong line 1 INT_MAX ≠ .ok n) ∧
    getContainerProcessesId 8 (some "1\n\x00\nabc\n".toList) = some [1] := by
  refine ⟨⟨"abc".toList, by decide, by decide, fun n hn => ?_⟩, by decide +kernel⟩
  have hread : tdParseLong "abc".toList 1 INT_MAX = .error "value must be a base-10 integer: abc" := by
    decide +kernel
  rw [hread] at hn
  cases hn

end TinyDocker
