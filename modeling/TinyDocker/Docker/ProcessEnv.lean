import TinyDocker.Lib.CText
import TinyDocker.Lib.ReadLoop

/-!
# The environment of a container process (`load_process_env` in `docker/container.c`)

The vector that `child_fn` and `docker_exec` give to `execve`: entries inherited from the process itself
or from `/proc/PID/environ`, then one entry `KEY=VALUE` for each user pair, in 256 slots.

Principal results: `process_env_lookup` — the vector is the start of the inherited entries followed by the
user entries, so that a lookup finds an inherited entry before a user pair;
`loadProcessEnv_succeeds` — when the vector is built.
-/

set_option autoImplicit false

namespace TinyDocker

open CText ReadLoop

/-- `struct key_val_pair`; `none` is `NULL`. -/
structure KeyValPair where
  key : Option Text
  val : Option Text
  deriving DecidableEq, Repr

def KeyValPair.of (p : Text × Text) : KeyValPair := ⟨some p.1, some p.2⟩

/-- The processes: the caller, its `environ`, and the bytes behind `/proc/PID/environ` where it opens. -/
structure EnvHost where
  getpid : Int
  environ : List Text
  procEnviron : Int → Option Text

/-- The answers to `calloc`, to the `malloc` of the read buffer, to the turns of the read loop, and to the
`malloc` of the entry of a slot. -/
structure EnvAnswers where
  calloc : Bool
  malloc : Bool
  turns : List Turn
  entry : Nat → Bool

def MAX_ENV_COUNT : Nat := 256

def MAX_ENV_BYTES : Nat := 1024 * 1024

/-- The whole buffer is read into. -/
def environParams : Params := ⟨0, MAX_ENV_BYTES⟩

/-- What a loop of the function makes of one source entry. -/
inductive EnvItem where
  | skipped
  | invalid
  | text (entry : Text)
  deriving DecidableEq, Repr

/-- The loops `while (... && env_idx < MAX_ENV_COUNT)`: the slots filled so far and the entries to come. -/
def fillSlots (alloc : Nat → Bool) : List Text → List EnvItem → Option (List Text)
  | envs, [] => some envs
  | envs, item :: rest =>
    if MAX_ENV_COUNT ≤ envs.length then some envs
    else match item with
      | .skipped => fillSlots alloc envs rest
      | .invalid => none
      | .text entry => if alloc envs.length then fillSlots alloc (envs ++ [entry]) rest else none

/-- A piece of `/proc/PID/environ`. -/
def procItem (piece : Text) : EnvItem := if piece = [] then .skipped else .text piece

/-- `snprintf(env_kv, env_length, "%s=%s", key, val)`. -/
def entryText (key val : Text) : Text := key ++ '=' :: val

def userItem : KeyValPair → EnvItem
  | ⟨some key, some val⟩ => .text (entryText key val)
  | _ => .invalid

def environPath (pid : Int) : Text := "/proc/".toList ++ (toString pid).toList ++ "/environ".toList

/-- The loop over `/proc/PID/environ`; `none` also when the answers end before the loop does. -/
def procSlots (contents : Text) (a : EnvAnswers) : Option (List Text) :=
  match run environParams (State.start 4096 contents) a.turns with
  | .done s => fillSlots a.entry [] ((pieces '\x00' s.buffer).map procItem)
  | _ => none

/-- The first part of the function, which copies the environment of `pid`. -/
def inheritedSlots (h : EnvHost) (a : EnvAnswers) (pid : Int) : Option (List Text) :=
  -- the entries of `environ` are not copied, so there is nothing to allocate
  if h.getpid = pid then fillSlots (fun _ => true) [] (h.environ.map .text)
  else if 256 ≤ (environPath pid).length then none
  else match h.procEnviron pid with
    | none => none
    | some contents => if a.malloc then procSlots contents a else none

/-- `load_process_env`: the entries in front of the final `NULL`. -/
def loadProcessEnv (h : EnvHost) (a : EnvAnswers) (pid : Int) (userEnvs : Option (List KeyValPair))
    (userEnvCnt : Int) : Option (List Text) :=
  if a.calloc = false ∨ userEnvCnt < 0 ∨ (0 < userEnvCnt ∧ userEnvs = none) then none
  else match inheritedSlots h a pid with
    | none => none
    | some envs => fillSlots a.entry envs (((userEnvs.getD []).take userEnvCnt.toNat).map userItem)

/-! ## `getenv` -/

/-- The value of an entry that starts with `key=`. -/
def valueOf (key entry : Text) : Option Text :=
  if (key ++ [ '=']).isPrefixOf entry then some (entry.drop (key.length + 1)) else none

/-- `getenv`: the first entry of the name. -/
def getenv (envs : List Text) (key : Text) : Option Text :=
  if key = [] then none else envs.findSome? (valueOf key)

theorem getenv_append (envs more : List Text) (key : Text) :
    getenv (envs ++ more) key = (getenv envs key).or (getenv more key) := by
  unfold getenv
  split
  · rfl
  · exact List.findSome?_append

theorem valueOf_entryText {key k : Text} (hkey : '=' ∉ key) (hk : '=' ∉ k) (v : Text) :
    valueOf key (entryText k v) = if k = key then some v else none := by
  have hcut : cut '=' (entryText k v) = some (k, v) := cut_append hk v
  unfold valueOf
  split
  · rename_i hprefix
    obtain ⟨t, ht⟩ := List.isPrefixOf_iff_prefix.1 hprefix
    rw [List.append_assoc, List.singleton_append] at ht
    rw [← ht, cut_append hkey t] at hcut
    cases hcut
    rw [if_pos rfl, ← ht, ← List.singleton_append, ← List.append_assoc,
      List.drop_left' (by rw [List.length_append, List.length_singleton])]
  · rename_i hprefix
    split
    · rename_i heq
      subst heq
      refine absurd (List.isPrefixOf_iff_prefix.2 ⟨v, ?_⟩) hprefix
      rw [List.append_assoc, List.singleton_append, entryText]
    · rfl

/-- The value of the first user pair for a key. -/
def userValue (pairs : List (Text × Text)) (key : Text) : Option Text :=
  (pairs.find? fun p => p.1 = key).map Prod.snd

theorem getenv_entries {key : Text} (hne : key ≠ []) (hkey : '=' ∉ key) : ∀ {pairs : List (Text × Text)},
    (∀ p ∈ pairs, '=' ∉ p.1) → getenv (pairs.map fun p => entryText p.1 p.2) key = userValue pairs key
  | [], _ => by
    rw [getenv, if_neg hne]
    rfl
  | (k, v) :: pairs, hpairs => by
    have htail := getenv_entries hne hkey fun p hp => hpairs p (List.mem_cons_of_mem _ hp)
    have hk : '=' ∉ k := hpairs (k, v) List.mem_cons_self
    rw [getenv, if_neg hne] at htail ⊢
    rw [List.map_cons, List.findSome?_cons, valueOf_entryText hkey hk, userValue, List.find?_cons]
    by_cases heq : k = key
    · simp [heq]
    · simpa [heq, userValue] using htail

/-! ## The vector -/

/-- The entry that an item brings. -/
def EnvItem.entry : EnvItem → Option Text
  | .text entry => some entry
  | _ => none

/-- **The slots are filled in order, up to the 256th.** -/
theorem fillSlots_eq {alloc : Nat → Bool} : ∀ {items : List EnvItem} {envs r : List Text},
    envs.length ≤ MAX_ENV_COUNT → fillSlots alloc envs items = some r →
    r = (envs ++ items.filterMap EnvItem.entry).take MAX_ENV_COUNT
  | [], envs, r, hle, h => by
    rw [fillSlots, Option.some.injEq] at h
    rw [List.filterMap_nil, List.append_nil, List.take_of_length_le hle, h]
  | item :: rest, envs, r, hle, h => by
    unfold fillSlots at h
    split at h
    · rename_i hfull
      rw [List.take_append_of_le_length hfull, List.take_of_length_le hle, Option.some.inj h]
    · rename_i hroom
      cases item with
      | skipped =>
        dsimp only at h
        rw [fillSlots_eq hle h]
        rfl
      | invalid => cases h
      | text entry =>
        dsimp only at h
        split at h
        · have hmore : (envs ++ [entry]).length ≤ MAX_ENV_COUNT := by
            rw [List.length_append, List.length_singleton]
            omega
          rw [fillSlots_eq hmore h, List.append_assoc]
          rfl
        · cases h

/-- Without a failure every slot is filled. -/
theorem fillSlots_some {alloc : Nat → Bool} (halloc : ∀ i, alloc i = true) :
    ∀ {items : List EnvItem} (envs : List Text), EnvItem.invalid ∉ items →
      (fillSlots alloc envs items).isSome
  | [], _, _ => rfl
  | item :: rest, envs, hvalid => by
    obtain ⟨hitem, hrest⟩ := not_or.1 (mt List.mem_cons.2 hvalid)
    unfold fillSlots
    split
    · rfl
    · cases item with
      | skipped => exact fillSlots_some halloc envs hrest
      | invalid => exact absurd rfl hitem
      | text entry =>
        dsimp only
        rw [if_pos (halloc _)]
        exact fillSlots_some halloc _ hrest

theorem filterMap_procItem (ps : List Text) :
    (ps.map procItem).filterMap EnvItem.entry = ps.filter fun p => p ≠ [] := by
  induction ps with
  | nil => rfl
  | cons p ps ih =>
    rw [List.map_cons, List.filterMap_cons, List.filter_cons, ih, procItem]
    by_cases hp : p = []
    · simp [hp, EnvItem.entry]
    · simp [hp, EnvItem.entry]

theorem filterMap_userItem (pairs : List (Text × Text)) :
    ((pairs.map KeyValPair.of).map userItem).filterMap EnvItem.entry =
      pairs.map fun p => entryText p.1 p.2 := by
  simp [List.filterMap_map, Function.comp_def, KeyValPair.of, userItem, EnvItem.entry]

/-- The entries a process inherits: its own, or the non-empty pieces of the environment of `pid`. -/
def inherited (h : EnvHost) (pid : Int) : List Text :=
  if h.getpid = pid then h.environ
  else (pieces '\x00' ((h.procEnviron pid).getD [])).filter fun p => p ≠ []

theorem environ_start (contents : Text) : Fits environParams contents (State.start 4096 contents) :=
  start_fits (by decide) (by decide) ⟨8, by decide⟩ contents

/-- However the environment was read. -/
theorem inheritedSlots_eq {h : EnvHost} {a : EnvAnswers} {pid : Int} {envs : List Text}
    (hsome : inheritedSlots h a pid = some envs) : envs = (inherited h pid).take MAX_ENV_COUNT := by
  unfold inheritedSlots at hsome
  unfold inherited
  split at hsome
  · rename_i hself
    have hentries : (h.environ.map EnvItem.text).filterMap EnvItem.entry = h.environ := by
      simp [List.filterMap_map, Function.comp_def, EnvItem.entry]
    rw [if_pos hself, fillSlots_eq (Nat.zero_le _) hsome, hentries, List.nil_append]
  · rename_i hother
    rw [if_neg hother]
    split at hsome
    · cases hsome
    · cases hproc : h.procEnviron pid with
      | none =>
        rw [hproc] at hsome
        cases hsome
      | some contents =>
        rw [hproc] at hsome
        dsimp only at hsome
        split at hsome
        · unfold procSlots at hsome
          split at hsome
          · rename_i s hrun
            obtain ⟨hbuffer, -, -⟩ := run_done (environ_start contents) hrun
            rw [fillSlots_eq (Nat.zero_le _) hsome, hbuffer, filterMap_procItem, List.nil_append]
            rfl
          · cases hsome
        · cases hsome

theorem loadProcessEnv_eq {h : EnvHost} {a : EnvAnswers} {pid : Int} {pairs : List (Text × Text)}
    {envs : List Text}
    (hsome : loadProcessEnv h a pid (some (pairs.map KeyValPair.of)) pairs.length = some envs) :
    envs = (inherited h pid ++ pairs.map fun p => entryText p.1 p.2).take MAX_ENV_COUNT := by
  unfold loadProcessEnv at hsome
  split at hsome
  · cases hsome
  · split at hsome
    · cases hsome
    · rename_i slots hslots
      have heq := inheritedSlots_eq hslots
      have hle : slots.length ≤ MAX_ENV_COUNT := by
        rw [heq]
        exact List.length_take_le _ _
      rw [Option.getD_some, Int.toNat_natCast,
        List.take_of_length_le (Nat.le_of_eq (List.length_map _))] at hsome
      rw [fillSlots_eq hle hsome, filterMap_userItem, heq, List.take_append, List.take_append,
        List.take_take, Nat.min_self, List.length_take]
      congr 2
      omega

/-- **What the environment of a container process holds.**  On success the vector is the first 256 of the
inherited entries followed by the user pairs: every user pair is in it when that is room enough for all,
and a lookup gives the value of the first inherited entry kept, else that of the first user pair kept. -/
theorem process_env_lookup {h : EnvHost} {a : EnvAnswers} {pid : Int} {pairs : List (Text × Text)}
    {envs : List Text} (hpairs : ∀ p ∈ pairs, '=' ∉ p.1)
    (hsome : loadProcessEnv h a pid (some (pairs.map KeyValPair.of)) pairs.length = some envs) :
    envs = (inherited h pid ++ pairs.map fun p => entryText p.1 p.2).take 256 ∧
    ((inherited h pid).length + pairs.length ≤ 256 → ∀ p ∈ pairs, entryText p.1 p.2 ∈ envs) ∧
    ∀ key, key ≠ [] → '=' ∉ key →
      getenv envs key = (getenv ((inherited h pid).take 256) key).or
        (userValue (pairs.take (256 - (inherited h pid).length)) key) := by
  have heq : envs = (inherited h pid ++ pairs.map fun p => entryText p.1 p.2).take 256 :=
    loadProcessEnv_eq hsome
  refine ⟨heq, fun hroom p hp => ?_, fun key hne hkey => ?_⟩
  · rw [List.take_of_length_le (by rw [List.length_append, List.length_map]; exact hroom)] at heq
    rw [heq]
    exact List.mem_append_right _ (List.mem_map.2 ⟨p, hp, rfl⟩)
  · have hkept : ∀ p ∈ pairs.take (256 - (inherited h pid).length), '=' ∉ p.1 :=
      fun p hp => hpairs p (List.mem_of_mem_take hp)
    rw [heq, List.take_append, getenv_append, ← List.map_take, getenv_entries hne hkey hkept]

/-- The path of every `int` fits its buffer. -/
theorem environPath_length {pid : Int} (h : pid.natAbs ≤ 2 ^ 31) : (environPath pid).length < 256 := by
  have hpid : (toString pid).toList.length ≤ 11 :=
    length_toString (by decide) (Nat.lt_of_le_of_lt h (by decide))
  have hproc : "/proc/".toList.length = 6 := rfl
  have henviron : "/environ".toList.length = 8 := rfl
  unfold environPath
  rw [List.length_append, List.length_append]
  omega

/-- The vector is built when nothing fails and, for another process, its environment is below 1 MiB and
`read` returns more often than it has bytes. -/
theorem loadProcessEnv_succeeds {h : EnvHost} {a : EnvAnswers} {pid : Int} (pairs : List (Text × Text))
    (hcalloc : a.calloc = true) (hentry : ∀ i, a.entry i = true)
    (hother : h.getpid ≠ pid → pid.natAbs ≤ 2 ^ 31 ∧ a.malloc = true ∧
      (∀ t ∈ a.turns, t.Works) ∧ ∃ contents, h.procEnviron pid = some contents ∧
        contents.length < MAX_ENV_BYTES ∧ contents.length < deliveries a.turns) :
    (loadProcessEnv h a pid (some (pairs.map KeyValPair.of)) pairs.length).isSome := by
  have hslots : ∃ envs, inheritedSlots h a pid = some envs := by
    unfold inheritedSlots
    by_cases hself : h.getpid = pid
    · rw [if_pos hself]
      exact Option.isSome_iff_exists.1 (fillSlots_some (fun _ => rfl) _ (by simp))
    · obtain ⟨hint, hmalloc, hworks, contents, hproc, hlen, hcount⟩ := hother hself
      rw [if_neg hself, if_neg (Nat.not_le_of_lt (environPath_length hint)), hproc]
      dsimp only
      rw [if_pos hmalloc, procSlots]
      have hfits := environ_start contents
      rcases run_result hfits hworks (run_finishes hfits hcount) with ⟨-, s, hrun, -⟩ | ⟨hmax, -⟩
      · rw [hrun]
        refine Option.isSome_iff_exists.1 (fillSlots_some hentry _ fun hmem => ?_)
        obtain ⟨piece, -, heq⟩ := List.mem_map.1 hmem
        unfold procItem at heq
        split at heq
        · cases heq
        · cases heq
      · exact absurd (Nat.lt_of_lt_of_le hlen hmax) (Nat.lt_irrefl _)
  obtain ⟨envs, hslots⟩ := hslots
  unfold loadProcessEnv
  rw [if_neg (by simp [hcalloc]), hslots]
  refine fillSlots_some hentry envs ?_
  rw [Option.getD_some, Int.toNat_natCast, List.take_of_length_le (Nat.le_of_eq (List.length_map _))]
  simp [KeyValPair.of, userItem]

/-- A host whose caller, process 1, has the environment given. -/
def envHost (environ : List Text) : EnvHost := ⟨1, environ, fun _ => none⟩

def envAnswers : EnvAnswers := ⟨true, true, [], fun _ => true⟩

theorem inherited_path_first :
    getenv [ "PATH=/a".toList, "PATH=/b".toList] "PATH".toList = some "/a".toList := by
  have hsome : loadProcessEnv (envHost [ "PATH=/a".toList]) envAnswers 1
      (some ([("PATH".toList, "/b".toList)].map KeyValPair.of)) 1 =
        some [ "PATH=/a".toList, "PATH=/b".toList] := by
    decide +kernel
  obtain ⟨-, -, hlookup⟩ := process_env_lookup
    (fun p hp => by rw [List.mem_singleton.1 hp]; decide +kernel) hsome
  rw [hlookup "PATH".toList (by decide) (by decide)]
  decide +kernel

/-- What a lookup finds after a run of process 1. -/
def lookupAfter (environ : List Text) (pairs : List (Text × Text)) (key : Text) : Option (Option Text) :=
  (loadProcessEnv (envHost environ) envAnswers 1 (some (pairs.map KeyValPair.of)) pairs.length).map
    fun envs => getenv envs key

/-- An inherited value stays, the first of two user pairs counts, and behind 256 inherited entries there is no
slot for the user. -/
theorem user_pairs_without_effect :
    lookupAfter [ "K=1".toList] [("K".toList, "2".toList)] "K".toList = some (some "1".toList) ∧
    lookupAfter [] [("K".toList, "1".toList), ("K".toList, "2".toList)] "K".toList =
      some (some "1".toList) ∧
    lookupAfter (List.replicate 256 "A=1".toList) [("K".toList, "1".toList)] "K".toList = some none := by
  decide +kernel

end TinyDocker
