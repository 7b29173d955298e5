import TinyDocker.Lib.Inodes
import TinyDocker.Lib.Runs
import TinyDocker.Docker.MetadataDir

/-!
# Processes that share the metadata directory (`docker/status_info.c`)

Any number of processes read, rewrite, create and remove metadata files at once, one system call at a time in any
order; every call may fail and a process may end between two calls.  There is no lock: a reader keeps the file that
it has opened, and a writer fills a file that only it has a name for and renames it over the old one.

Principal results:

* `World.Sound.call` — one call of any process keeps the files that names stand for whole;
* `World.Sound.run` — and so does every run.
-/

set_option autoImplicit false

namespace TinyDocker

open CText Inodes

namespace Shared

abbrev Pid := Fin (2 ^ 31)

/-- What is done with a record that has been read: nothing, `update_container_status`, or
`refresh_container_status_if_needed` with what it finds out about the process. -/
inductive Task where
  | read
  | update (status : ContainerStatus)
  | refresh (lookup : StatusFile.ProcessLookup)
  deriving DecidableEq, Repr

/-- The record that is written after the reading, if any. -/
def Task.rewritten (task : Task) (r : StatusRecord) : Option StatusRecord :=
  match task with
  | .read => none
  | .update status => some { r with status := StatusFile.strStatus status }
  | .refresh lookup =>
    let exited := { r with status := StatusFile.strStatus .exited }
    if r.status ≠ StatusFile.strStatus .running then none
    else if r.pid ≤ 0 then none
    else match lookup with
      | .failed => none
      | .gone => some exited
      | .found startTime => if r.pidStartTime = 0 ∨ startTime = r.pidStartTime then none else some exited

/-- The callers of `update_container_status` pass `STOPPED` or `EXITED`. -/
def Task.FromCallers (task : Task) : Prop := task ≠ .update .running

/-- Between which two calls a process is. -/
inductive Phase where
  | idle
  | opening (task : Task) (name : Text)
  | opened (task : Task) (name : Text) (inode : Nat)
  | reading (task : Task) (name : Text) (inode size : Nat) (data : Text)
  | creating (name : Text) (r : StatusRecord) (attempt : Nat)
  | writing (name : Text) (r : StatusRecord) (temporary : Text) (inode : Nat)
  | filling (name : Text) (r : StatusRecord) (temporary : Text) (inode : Nat) (rest : Text)
  | publishing (name : Text) (r : StatusRecord) (temporary : Text) (inode : Nat)
  | unlinking (temporary : Text)
  | removing (name : Text)
  /-- The record that was read or published. -/
  | returned (info : Option StatusRecord)
  deriving DecidableEq, Repr

/-- The answer to a call; `written` is what a failing write leaves in the file. -/
structure Answer where
  fails : Bool
  interrupted : Bool
  count : Nat
  written : Text

abbrev MetadataFiles := Files Text Char

/-- The checks that `write_container_info` makes first. -/
def startWrite (name : Text) (r : StatusRecord) : Phase :=
  if tdValidateName name TINYDOCKER_MAX_CONTAINER_NAME ≠ .ok () ∨ name ≠ r.name then .returned none
  else .creating name r 0

/-- What follows when the record has been read. -/
def Task.proceed (task : Task) (name : Text) (r : StatusRecord) : Phase :=
  match task.rewritten r with
  | none => .returned (some r)
  | some r' => startWrite name r'

/-- The next call of a process. -/
def Phase.call (pid : Pid) (f : MetadataFiles) (a : Answer) : Phase → MetadataFiles × Phase
  | .idle => (f, .idle)
  | .opening task name =>
    if a.fails then (f, .returned none)
    else match f.dir name with
      | none => (f, .returned none)
      | some inode => (f, .opened task name inode)
  | .opened task name inode =>
    if a.fails ∨ StatusFile.MAX_METADATA_SIZE < (f.contents inode).length then (f, .returned none)
    else (f, .reading task name inode (f.contents inode).length [])
  | .reading task name inode size data =>
    if data.length < size then
      let piece := ((f.contents inode).drop data.length).take (min a.count (size - data.length))
      if a.interrupted then (f, .reading task name inode size data)
      else if a.fails ∨ piece = [] then (f, .returned none)
      else (f, .reading task name inode size (data ++ piece))
    else match tdParseContainerInfo data name with
      | .error _ => (f, .returned none)
      | .ok r => (f, task.proceed name r)
  | .creating name r attempt =>
    let temporary := StatusDir.temporaryName name pid attempt
    -- A name that does not fit is cut, and the cut name is unlinked.
    if 256 ≤ temporary.length then (f, .unlinking (temporary.take 255))
    else if a.fails then (f, .unlinking temporary)
    else match f.dir temporary with
      | none => (f.create temporary, .writing name r temporary f.next)
      | some _ => (f, if attempt + 1 < 100 then .creating name r (attempt + 1) else .unlinking temporary)
  | .writing name r temporary inode =>
    match tdWriteContainerInfo r with
    | .error _ => (f.append inode a.written, .unlinking temporary)
    | .ok data =>
      if a.fails then (f.append inode a.written, .unlinking temporary)
      else (f, .filling name r temporary inode data)
  | .filling name r temporary inode rest =>
    if a.fails then (f.append inode a.written, .unlinking temporary)
    else if rest = [] then (f, .publishing name r temporary inode)
    else (f.append inode (rest.take a.count), .filling name r temporary inode (rest.drop a.count))
  | .publishing name r temporary _ =>
    if a.fails ∨ f.dir temporary = none then (f, .unlinking temporary)
    else (f.rename temporary name, .returned (some r))
  | .unlinking temporary => (if a.fails then f else f.unlink temporary, .returned none)
  | .removing name => (if a.fails then f else f.unlink name, .returned none)
  | .returned info => (f, .returned info)

structure World where
  files : MetadataFiles
  proc : Pid → Phase

def World.put (w : World) (pid : Pid) (f : MetadataFiles) (phase : Phase) : World :=
  ⟨f, Function.update w.proc pid phase⟩

/-- What happens next: a process that is free begins, a process makes its next call, or it ends and its pid is free
again. -/
inductive Action where
  | read (pid : Pid) (task : Task) (name : Text)
  | create (pid : Pid) (name : Text) (r : StatusRecord)
  | remove (pid : Pid) (name : Text)
  | call (pid : Pid) (a : Answer)
  | crash (pid : Pid)

def Phase.free : Phase → Bool
  | .idle | .returned _ => true
  | _ => false

def World.begin (w : World) (pid : Pid) (name : Text) (phase : Phase) : World :=
  if (w.proc pid).free = false then w
  else if tdValidateName name TINYDOCKER_MAX_CONTAINER_NAME ≠ .ok () then w.put pid w.files (.returned none)
  else w.put pid w.files phase

def World.step (w : World) : Action → World
  | .read pid task name => w.begin pid name (.opening task name)
  | .create pid name r => w.begin pid name (startWrite name r)
  | .remove pid name => w.begin pid name (.removing name)
  | .call pid a => w.put pid ((w.proc pid).call pid w.files a).1 ((w.proc pid).call pid w.files a).2
  | .crash pid => w.put pid w.files .idle

/-- The decision of a refresh is that of `refresh_container_status_if_needed`. -/
theorem refresh_rewritten (io : Bool) (lookup : StatusFile.ProcessLookup) {name : Text} (r : StatusRecord)
    (file : Option Text) (hname : name ≠ []) :
    (StatusFile.refreshContainerStatusIfNeeded io lookup name r file).1 =
      match (Task.refresh lookup).rewritten r with
      | none => file
      | some r' => (StatusFile.writeContainerInfo io name r' file).1 := by
  unfold StatusFile.refreshContainerStatusIfNeeded Task.rewritten
  simp only [if_neg hname]
  split
  · rfl
  split
  · rfl
  cases lookup with
  | failed => rfl
  | gone => rfl
  | found startTime =>
    simp only
    split <;> rfl

/-! ## Temporary names -/

/-- The parts before and behind the last dot. -/
theorem last_dot {t u a b : Text} (h : t ++ '.' :: a = u ++ '.' :: b) (ha : '.' ∉ a) (hb : '.' ∉ b) :
    t = u ∧ a = b := by
  rcases List.append_eq_append_iff.1 h with ⟨c, hu, hc⟩ | ⟨c, ht, hc⟩
  · cases c with
    | nil => exact ⟨by rw [hu, List.append_nil], (List.cons.inj hc).2⟩
    | cons x c =>
      obtain ⟨-, hac⟩ := List.cons.inj hc
      exact absurd (by rw [hac]; simp) ha
  · cases c with
    | nil => exact ⟨by rw [ht, List.append_nil], (List.cons.inj hc).2.symm⟩
    | cons x c =>
      obtain ⟨-, hbc⟩ := List.cons.inj hc
      exact absurd (by rw [hbc]; simp) hb

/-- The temporary files of two processes have different names. -/
theorem temporaryName_pid {m n : Text} {p q j k : Nat}
    (h : StatusDir.temporaryName m p j = StatusDir.temporaryName n q k) : p = q := by
  have hdots : ∀ (n : Text) (p k : Nat), StatusDir.temporaryName n p k =
      ('.' :: (n ++ ".tmp".toList) ++ '.' :: Nat.toDigits 10 p) ++ '.' :: Nat.toDigits 10 k := by
    intro n p k
    have htmp : ".tmp.".toList = ".tmp".toList ++ [ '.'] := rfl
    unfold StatusDir.temporaryName
    rw [htmp]
    simp only [List.append_assoc, List.cons_append, List.nil_append]
  rw [hdots, hdots] at h
  obtain ⟨hfront, -⟩ := last_dot h (Ipv4.dot_not_mem_toDigits j) (Ipv4.dot_not_mem_toDigits k)
  obtain ⟨-, hp⟩ := last_dot hfront (Ipv4.dot_not_mem_toDigits p) (Ipv4.dot_not_mem_toDigits q)
  rw [← @Nat.ofDigitChars_ten_toDigits p, hp, Nat.ofDigitChars_ten_toDigits]

/-! ## The invariant -/

/-- No name in use is that of a temporary file. -/
def Apart (used : Text → Prop) : Prop := ∀ m n, used m → used n → ∀ p k, n ≠ StatusDir.temporaryName m p k

/-- The names in use, and which records they may have: `held` is what a reader may still have, `current` what the
name stands for, `pending` what a process is going to write. -/
structure Records where
  used : Text → Prop
  held : Text → StatusRecord → Prop
  current : Text → StatusRecord → Prop
  pending : Text → StatusRecord → Prop
  apart : Apart used
  current_held : ∀ n r, current n r → held n r
  pending_current : ∀ n r, pending n r → current n r
  rewritten : ∀ (task : Task) n r r', task.FromCallers → held n r → task.rewritten r = some r' → pending n r'

/-- The text is a whole record of that name, and one that can be written again. -/
def Decodes (P : Text → StatusRecord → Prop) (name : Text) (r : StatusRecord) (data : Text) : Prop :=
  StatusFile.readContainerInfo name (some data) = some r ∧ r.Rewritable ∧ P name r

def Good (P : Text → StatusRecord → Prop) (name data : Text) : Prop := ∃ r, Decodes P name r data

def Phase.inode : Phase → Option Nat
  | .writing _ _ _ inode | .filling _ _ _ inode _ | .publishing _ _ _ inode => some inode
  | _ => none

/-- No process writes to that file, now or later. -/
def Frozen (w : World) (inode : Nat) : Prop := inode < w.files.next ∧ ∀ q, (w.proc q).inode ≠ some inode

/-- A temporary file of that process. -/
def Own (w : World) (pid : Pid) (name temporary : Text) (inode : Nat) : Prop :=
  (∃ k, temporary = StatusDir.temporaryName name pid k) ∧ w.files.dir temporary = some inode

/-- What is written, if anything can be written, will be a whole record. -/
def Pending (R : Records) (name : Text) (r : StatusRecord) : Prop :=
  ∀ data, tdWriteContainerInfo r = .ok data → Decodes R.pending name r data

/-- Other names than those in use are read at most: a listing also comes across temporary files. -/
def Reads (R : Records) (task : Task) (name : Text) : Prop := task.FromCallers ∧ (task = .read ∨ R.used name)

def Phase.Sound (R : Records) (w : World) (pid : Pid) : Phase → Prop
  | .idle | .returned _ => True
  | .opening task name => Reads R task name
  | .removing name => R.used name
  | .opened task name inode => Reads R task name ∧
      (R.used name → Frozen w inode ∧ Good R.held name (w.files.contents inode))
  | .reading task name inode size data => Reads R task name ∧
      (R.used name → Frozen w inode ∧ Good R.held name (w.files.contents inode) ∧
        size = (w.files.contents inode).length ∧ data <+: w.files.contents inode)
  | .creating name r attempt => R.used name ∧ tdValidateName name TINYDOCKER_MAX_CONTAINER_NAME = .ok () ∧
      attempt < 100 ∧ Pending R name r
  | .writing name r temporary inode => R.used name ∧ Own w pid name temporary inode ∧ Pending R name r ∧
      w.files.contents inode = []
  | .filling name r temporary inode rest => R.used name ∧ Own w pid name temporary inode ∧
      Decodes R.pending name r (w.files.contents inode ++ rest)
  | .publishing name r temporary inode => R.used name ∧ Own w pid name temporary inode ∧
      Decodes R.pending name r (w.files.contents inode)
  | .unlinking temporary => ∃ name k, R.used name ∧ temporary = StatusDir.temporaryName name pid k

structure World.Sound (R : Records) (w : World) : Prop where
  once : w.files.Once
  stored : ∀ name inode, R.used name → w.files.dir name = some inode →
    Frozen w inode ∧ Good R.current name (w.files.contents inode)
  proc : ∀ q, (w.proc q).Sound R w q

theorem Good.mono {P Q : Text → StatusRecord → Prop} {name data : Text} (h : Good P name data)
    (hPQ : ∀ n r, P n r → Q n r) : Good Q name data := by
  obtain ⟨r, hread, hr, hP⟩ := h
  exact ⟨r, hread, hr, hPQ name r hP⟩

/-- A new status keeps a record writable and readable. -/
theorem rewritten_decodes {name data written : Text} {r : StatusRecord} {status : ContainerStatus}
    (hread : StatusFile.readContainerInfo name (some data) = some r) (hr : r.Rewritable)
    (hwrite : tdWriteContainerInfo { r with status := StatusFile.strStatus status } = .ok written) :
    StatusFile.readContainerInfo name (some written) = some { r with status := StatusFile.strStatus status } := by
  obtain ⟨hparsed, hname⟩ := parsed_of_read hread
  have hnew : ({ r with status := StatusFile.strStatus status } : StatusRecord).Rewritable :=
    ⟨hr.image, hr.command, hr.volumes, hr.containerId, hr.created, hr.ipAddr⟩
  obtain ⟨file, hfile, hback⟩ := (rewrite_iff none (hparsed.withStatus status) hname).2 hnew
  obtain ⟨-, -, -, -, rfl⟩ := writeContainerInfo_iff.1 hfile
  obtain ⟨-, rfl⟩ := tdWriteContainerInfo_iff.1 hwrite
  exact hback

/-- A record is written again with another status only. -/
theorem Task.rewritten_cases {task : Task} {r r' : StatusRecord} (h : task.rewritten r = some r') :
    ∃ status, r' = { r with status := StatusFile.strStatus status } ∧
      (status = .exited ∨ task = .update status) := by
  cases task with
  | read => cases h
  | update status => exact ⟨status, (Option.some.inj h).symm, Or.inr rfl⟩
  | refresh lookup =>
    unfold Task.rewritten at h
    simp only at h
    split at h
    · cases h
    split at h
    · cases h
    cases lookup with
    | failed => cases h
    | gone => exact ⟨.exited, (Option.some.inj h).symm, Or.inl rfl⟩
    | found startTime =>
      simp only at h
      split at h
      · cases h
      · exact ⟨.exited, (Option.some.inj h).symm, Or.inl rfl⟩

theorem pending_rewritten {R : Records} {task : Task} {name data : Text} {r r' : StatusRecord}
    (htask : task.FromCallers) (h : Decodes R.held name r data) (hr' : task.rewritten r = some r') :
    Pending R name r' := by
  obtain ⟨hread, hr, hheld⟩ := h
  intro written hwrite
  have hpending := R.rewritten task name r r' htask hheld hr'
  obtain ⟨status, rfl, -⟩ := Task.rewritten_cases hr'
  exact ⟨rewritten_decodes hread hr hwrite,
    ⟨hr.image, hr.command, hr.volumes, hr.containerId, hr.created, hr.ipAddr⟩, hpending⟩

section Step

variable {R : Records} {w : World} {p : Pid} {f : MetadataFiles} {phase : Phase}

@[simp] theorem put_files : (w.put p f phase).files = f := rfl

@[simp] theorem put_self : (w.put p f phase).proc p = phase := Function.update_self ..

theorem put_of_ne {q : Pid} (h : q ≠ p) : (w.put p f phase).proc q = w.proc q := Function.update_of_ne h _ _

/-- What a process may do to the files between two calls of the others. -/
structure Change (R : Records) (w : World) (p : Pid) (f : MetadataFiles) (phase : Phase) : Prop where
  next : w.files.next ≤ f.next
  contents : ∀ i, i < w.files.next → (w.proc p).inode ≠ some i → f.contents i = w.files.contents i
  temporaries : ∀ q, q ≠ p → ∀ m k, R.used m →
    f.dir (StatusDir.temporaryName m q k) = w.files.dir (StatusDir.temporaryName m q k)
  inode : ∀ i, phase.inode = some i → (w.proc p).inode = some i ∨ w.files.next ≤ i

/-- The temporary file of a process is no one else's. -/
theorem World.Sound.owner (h : w.Sound R) {q : Pid} {i : Nat} (hp : (w.proc p).inode = some i)
    (hq : (w.proc q).inode = some i) : p = q := by
  have hown : ∀ r : Pid, (w.proc r).inode = some i → ∃ m k, w.files.dir (StatusDir.temporaryName m r k) = some i := by
    intro r hr
    have hsound := h.proc r
    cases hphase : w.proc r <;> rw [hphase] at hr hsound <;> cases hr
    all_goals
      obtain ⟨-, ⟨⟨k, hk⟩, hdir⟩, -⟩ := hsound
      exact ⟨_, k, hk ▸ hdir⟩
  obtain ⟨m, j, hm⟩ := hown p hp
  obtain ⟨n, k, hn⟩ := hown q hq
  exact Fin.ext (temporaryName_pid (h.once.single _ _ i hm hn))

theorem Frozen.put (hc : Change R w p f phase) {i : Nat} (h : Frozen w i) :
    Frozen (w.put p f phase) i ∧ f.contents i = w.files.contents i := by
  refine ⟨⟨Nat.lt_of_lt_of_le h.1 hc.next, fun q hq => ?_⟩, hc.contents i h.1 (h.2 p)⟩
  by_cases hqp : q = p
  · subst hqp
    rw [put_self] at hq
    rcases hc.inode i hq with hold | hnew
    · exact h.2 q hold
    · exact absurd h.1 (Nat.not_lt.2 hnew)
  · rw [put_of_ne hqp] at hq
    exact h.2 q hq

/-- What another process does leaves the temporary file alone. -/
theorem Own.put (h : w.Sound R) (hc : Change R w p f phase) {q : Pid} (hqp : q ≠ p) {name temporary : Text} {i : Nat}
    (hused : R.used name) (hown : Own w q name temporary i) (hin : (w.proc q).inode = some i) :
    Own (w.put p f phase) q name temporary i ∧ f.contents i = w.files.contents i := by
  obtain ⟨⟨k, rfl⟩, hdir⟩ := hown
  refine ⟨⟨⟨k, rfl⟩, (hc.temporaries q hqp name k hused).trans hdir⟩, ?_⟩
  exact hc.contents i (h.once.fresh _ i hdir) fun hp => hqp (h.owner hin hp)

/-- The other processes stay as they are. -/
theorem Phase.Sound.put (h : w.Sound R) (hc : Change R w p f phase) {q : Pid} (hqp : q ≠ p) :
    (w.proc q).Sound R (w.put p f phase) q := by
  have hq := h.proc q
  cases hphase : w.proc q with
  | idle => trivial
  | returned info => trivial
  | opening task name => rwa [hphase] at hq
  | removing name => rwa [hphase] at hq
  | creating name r attempt => rwa [hphase] at hq
  | unlinking temporary => rwa [hphase] at hq
  | opened task name i =>
    rw [hphase] at hq
    obtain ⟨hreads, hfile⟩ := hq
    refine ⟨hreads, fun hused => ?_⟩
    obtain ⟨hfrozen, hgood⟩ := hfile hused
    obtain ⟨hfrozen', hsame⟩ := hfrozen.put hc
    exact ⟨hfrozen', show Good R.held name (f.contents i) from hsame ▸ hgood⟩
  | reading task name i size data =>
    rw [hphase] at hq
    obtain ⟨hreads, hfile⟩ := hq
    refine ⟨hreads, fun hused => ?_⟩
    obtain ⟨hfrozen, hrest⟩ := hfile hused
    obtain ⟨hfrozen', hsame⟩ := hfrozen.put hc
    refine ⟨hfrozen', ?_⟩
    rw [put_files, hsame]
    exact hrest
  | writing name r temporary i =>
    rw [hphase] at hq
    obtain ⟨hused, hown, hpending, hempty⟩ := hq
    obtain ⟨hown', hsame⟩ := hown.put h hc hqp hused (by rw [hphase]; rfl)
    exact ⟨hused, hown', hpending, hsame.trans hempty⟩
  | filling name r temporary i rest =>
    rw [hphase] at hq
    obtain ⟨hused, hown, hdecodes⟩ := hq
    obtain ⟨hown', hsame⟩ := hown.put h hc hqp hused (by rw [hphase]; rfl)
    refine ⟨hused, hown', ?_⟩
    rw [put_files, hsame]
    exact hdecodes
  | publishing name r temporary i =>
    rw [hphase] at hq
    obtain ⟨hused, hown, hdecodes⟩ := hq
    obtain ⟨hown', hsame⟩ := hown.put h hc hqp hused (by rw [hphase]; rfl)
    refine ⟨hused, hown', ?_⟩
    rw [put_files, hsame]
    exact hdecodes

/-- **One step**: what a process changes keeps the invariant if its own part is right and the names in use stand
for what they stood for, or for a whole record that is not written to. -/
theorem World.Sound.put (h : w.Sound R) (hc : Change R w p f phase) (honce : f.Once)
    (hstored : ∀ name i, R.used name → f.dir name = some i → w.files.dir name = some i ∨
      Frozen (w.put p f phase) i ∧ Good R.current name (f.contents i))
    (hown : phase.Sound R (w.put p f phase) p) : (w.put p f phase).Sound R := by
  refine ⟨honce, fun name i hused hdir => ?_, fun q => ?_⟩
  · rcases hstored name i hused hdir with hold | hnew
    · obtain ⟨hfrozen, hgood⟩ := h.stored name i hused hold
      obtain ⟨hfrozen', hsame⟩ := hfrozen.put hc
      exact ⟨hfrozen', show Good R.current name (f.contents i) from hsame ▸ hgood⟩
    · exact hnew
  · by_cases hqp : q = p
    · subst hqp
      rw [put_self]
      exact hown
    · rw [put_of_ne hqp]
      exact Phase.Sound.put h hc hqp

theorem Change.same (hin : phase.inode = none ∨ phase.inode = (w.proc p).inode) : Change R w p w.files phase := by
  refine ⟨Nat.le_refl _, fun _ _ _ => rfl, fun _ _ _ _ _ => rfl, fun i hi => ?_⟩
  rcases hin with hnone | hsame
  · rw [hnone] at hi
    cases hi
  · exact Or.inl (hsame ▸ hi)

theorem World.Sound.same (h : w.Sound R) (hin : phase.inode = none ∨ phase.inode = (w.proc p).inode)
    (hown : phase.Sound R (w.put p w.files phase) p) : (w.put p w.files phase).Sound R :=
  h.put (Change.same hin) h.once (fun _ _ _ hdir => Or.inl hdir) hown

/-- A call that goes wrong. -/
theorem World.Sound.failed (h : w.Sound R) {info : Option StatusRecord} :
    (w.put p w.files (.returned info)).Sound R := h.same (Or.inl rfl) trivial

/-- A write to the own temporary file. -/
theorem World.Sound.append (h : w.Sound R) {i : Nat} {piece : Text} (hinode : (w.proc p).inode = some i)
    (hin : phase.inode = none ∨ phase.inode = (w.proc p).inode)
    (hown : phase.Sound R (w.put p (w.files.append i piece) phase) p) :
    (w.put p (w.files.append i piece) phase).Sound R := by
  have hc : Change R w p (w.files.append i piece) phase := by
    refine ⟨Nat.le_refl _, fun j _ hj => append_contents_of_ne fun hji => hj (hji ▸ hinode), fun _ _ _ _ _ => rfl,
      (@Change.same R w p phase hin).inode⟩
  exact h.put hc (h.once.append i piece) (fun _ _ _ hdir => Or.inl hdir) hown

/-- Unlinking what is no temporary file of another process. -/
theorem World.Sound.unlink (h : w.Sound R) {a : Text} {info : Option StatusRecord}
    (ha : ∀ q, q ≠ p → ∀ m k, R.used m → StatusDir.temporaryName m q k ≠ a) :
    (w.put p (w.files.unlink a) (.returned info)).Sound R := by
  refine h.put ⟨Nat.le_refl _, fun _ _ _ => rfl, fun q hq m k hm => unlink_of_ne (ha q hq m k hm), ?_⟩ h.once.unlink
    (fun _ _ _ hdir => Or.inl (unlink_dir hdir).2) trivial
  intro i hi
  cases hi

theorem temporary_ne {q : Pid} (hq : q ≠ p) (m n : Text) (j k : Nat) :
    StatusDir.temporaryName m q j ≠ StatusDir.temporaryName n p k := fun h => hq (Fin.ext (temporaryName_pid h))

theorem World.Sound.create (h : w.Sound R) {name : Text} {r : StatusRecord} {k : Nat} (hused : R.used name)
    (hpending : Pending R name r) :
    (w.put p (w.files.create (StatusDir.temporaryName name p k))
      (.writing name r (StatusDir.temporaryName name p k) w.files.next)).Sound R := by
  refine h.put ⟨Nat.le_succ _, fun i hi _ => create_contents hi,
    fun q hq m j _ => create_of_ne (temporary_ne hq m name j k), fun i hi => ?_⟩ h.once.create ?_ ?_
  · cases hi
    exact Or.inr (Nat.le_refl _)
  · intro n i hn hdir
    rcases create_dir hdir with ⟨hname, -⟩ | ⟨-, hold⟩
    · exact absurd hname (R.apart name n hused hn p k)
    · exact Or.inl hold
  · exact ⟨hused, ⟨⟨k, rfl⟩, Function.update_self ..⟩, hpending, Function.update_self ..⟩

/-- The renaming puts a whole record behind the name. -/
theorem World.Sound.publish (h : w.Sound R) {name temporary : Text} {r : StatusRecord} {i : Nat}
    {info : Option StatusRecord} (hinode : (w.proc p).inode = some i) (hused : R.used name)
    (hown : Own w p name temporary i) (hdecodes : Decodes R.pending name r (w.files.contents i)) :
    (w.put p (w.files.rename temporary name) (.returned info)).Sound R := by
  obtain ⟨⟨k, rfl⟩, hdir⟩ := hown
  refine h.put ⟨Nat.le_refl _, fun _ _ _ => rfl, fun q hq m j hm => ?_, fun i hi => by cases hi⟩ h.once.rename ?_
    trivial
  · exact rename_of_ne (fun hname => R.apart m name hm hused q j hname.symm) (temporary_ne hq m name j k)
  · intro n j hn hj
    rcases rename_dir hj with ⟨rfl, hj⟩ | ⟨-, -, hold⟩
    · obtain rfl : i = j := Option.some.inj (hdir.symm.trans hj)
      refine Or.inr ⟨⟨h.once.fresh _ i hdir, fun q hq => ?_⟩, ?_⟩
      · by_cases hqp : q = p
        · subst hqp
          rw [put_self] at hq
          cases hq
        · rw [put_of_ne hqp] at hq
          exact hqp (h.owner hq hinode)
      · obtain ⟨hread, hr, hpending⟩ := hdecodes
        exact ⟨r, hread, hr, R.pending_current _ r hpending⟩
    · exact Or.inl hold

/-- `write_container_info` begins with its checks. -/
theorem World.Sound.start (h : w.Sound R) {name : Text} {r : StatusRecord} (hused : R.used name)
    (hpending : Pending R name r) : (w.put p w.files (startWrite name r)).Sound R := by
  unfold startWrite
  split
  · exact h.failed
  · rename_i hvalid
    rw [not_or, not_not] at hvalid
    exact h.same (Or.inl rfl) ⟨hused, hvalid.1, by decide, hpending⟩

theorem read_decodes {P : Text → StatusRecord → Prop} {name data : Text} (h : Good P name data) :
    ∃ r, tdParseContainerInfo data name = .ok r ∧ Decodes P name r data ∧
      data.length ≤ StatusFile.MAX_METADATA_SIZE := by
  obtain ⟨r, hread, hr, hP⟩ := h
  have hwhole : StatusFile.readContainerInfo name (some data) = some r := hread
  unfold StatusFile.readContainerInfo at hread
  simp only at hread
  split at hread
  · cases hread
  split at hread
  · cases hread
  rename_i hsize
  split at hread
  · cases hread
  · rename_i r' hparse
    cases hread
    exact ⟨r, hparse, ⟨hwhole, hr, hP⟩, Nat.not_lt.1 hsize⟩

/-- A piece that is read continues what has been read. -/
theorem piece_read {data whole : Text} (n : Nat) (h : data <+: whole) :
    data ++ (whole.drop data.length).take n <+: whole := by
  obtain ⟨rest, rfl⟩ := h
  rw [List.drop_left]
  exact List.prefix_append_right_inj data |>.2 (List.take_prefix n rest)

theorem read_whole {data whole : Text} (h : data <+: whole) (hlen : ¬ data.length < whole.length) : data = whole :=
  h.eq_of_length (Nat.le_antisymm h.length_le (Nat.not_lt.1 hlen))

/-- What is done with a record that has been read. -/
theorem World.Sound.proceed (h : w.Sound R) {task : Task} {name data : Text} {r : StatusRecord}
    (hreads : Reads R task name) (hfile : R.used name → Decodes R.held name r data) :
    (w.put p w.files (task.proceed name r)).Sound R := by
  unfold Task.proceed
  split
  · exact h.failed
  rename_i r' hr'
  rcases hreads.2 with rfl | hused
  · cases hr'
  · exact h.start hused (pending_rewritten hreads.1 (hfile hused) hr')

theorem World.Sound.reading (h : w.Sound R) (a : Answer) {task : Task} {name data : Text} {i size : Nat}
    (hp : (Phase.reading task name i size data).Sound R w p) :
    (w.put p ((Phase.reading task name i size data).call p w.files a).1
      ((Phase.reading task name i size data).call p w.files a).2).Sound R := by
  obtain ⟨hreads, hfile⟩ := hp
  simp only [Phase.call]
  split
  · split
    · refine h.same (Or.inl rfl) ⟨hreads, fun hused => ?_⟩
      obtain ⟨hfrozen, hrest⟩ := hfile hused
      exact ⟨(hfrozen.put (Change.same (R := R) (Or.inl rfl))).1, hrest⟩
    split
    · exact h.failed
    · refine h.same (Or.inl rfl) ⟨hreads, fun hused => ?_⟩
      obtain ⟨hfrozen, hgood, hsize, hdata⟩ := hfile hused
      exact ⟨(hfrozen.put (Change.same (R := R) (Or.inl rfl))).1, hgood, hsize, piece_read _ hdata⟩
  rename_i hlen
  split
  · exact h.failed
  rename_i r hparse
  refine @World.Sound.proceed R w p h task name data r hreads fun hused => ?_
  -- The whole file has been read: what it decodes to is the record.
  obtain ⟨-, hgood, hsize, hdata⟩ := hfile hused
  have hwhole := read_whole hdata (hsize ▸ hlen)
  obtain ⟨r₀, hparse₀, hdecodes, -⟩ := read_decodes hgood
  rw [← hwhole, hparse] at hparse₀
  cases hparse₀
  rw [hwhole]
  exact hdecodes

theorem World.Sound.creating (h : w.Sound R) (a : Answer) {name : Text} {r : StatusRecord} {attempt : Nat}
    (hp : (Phase.creating name r attempt).Sound R w p) :
    (w.put p ((Phase.creating name r attempt).call p w.files a).1
      ((Phase.creating name r attempt).call p w.files a).2).Sound R := by
  obtain ⟨hused, hvalid, hattempt, hpending⟩ := hp
  have hfits := StatusDir.temporaryName_length (tdValidateName_ok hvalid).2.1 p.isLt hattempt
  have hunlink : (Phase.unlinking (StatusDir.temporaryName name p attempt)).Sound R
      (w.put p w.files (.unlinking (StatusDir.temporaryName name p attempt))) p := ⟨name, attempt, hused, rfl⟩
  simp only [Phase.call, if_neg (Nat.not_le.2 hfits)]
  split
  · exact h.same (Or.inl rfl) hunlink
  split
  · exact h.create hused hpending
  split
  · rename_i hnext
    exact h.same (Or.inl rfl) ⟨hused, hvalid, hnext, hpending⟩
  · exact h.same (Or.inl rfl) hunlink

/-- The cleanup unlinks a temporary file of the process itself. -/
theorem Own.unlinking {name temporary : Text} {i : Nat} (hused : R.used name) (hown : Own w p name temporary i) :
    ∃ n k, R.used n ∧ temporary = StatusDir.temporaryName n p k := by
  obtain ⟨⟨k, hk⟩, -⟩ := hown
  exact ⟨name, k, hused, hk⟩

/-- **A call of any process** keeps the invariant, whatever its answer. -/
theorem World.Sound.call (h : w.Sound R) (a : Answer) : (w.step (.call p a)).Sound R := by
  have hp := h.proc p
  unfold World.step
  simp only
  cases hphase : w.proc p with
  | idle => exact h.same (Or.inl rfl) trivial
  | returned info => exact h.failed
  | opening task name =>
    rw [hphase] at hp
    have hreads : Reads R task name := hp
    simp only [Phase.call]
    split
    · exact h.failed
    split
    · exact h.failed
    · rename_i i hdir
      refine h.same (Or.inl rfl) ⟨hreads, fun hused => ?_⟩
      obtain ⟨hfrozen, hgood⟩ := h.stored name i hused hdir
      exact ⟨(hfrozen.put (Change.same (R := R) (Or.inl rfl))).1, hgood.mono R.current_held⟩
  | opened task name i =>
    rw [hphase] at hp
    obtain ⟨hreads, hfile⟩ := hp
    simp only [Phase.call]
    split
    · exact h.failed
    · refine h.same (Or.inl rfl) ⟨hreads, fun hused => ?_⟩
      obtain ⟨hfrozen, hgood⟩ := hfile hused
      exact ⟨(hfrozen.put (Change.same (R := R) (Or.inl rfl))).1, hgood, rfl, List.nil_prefix⟩
  | reading task name i size data =>
    rw [hphase] at hp
    exact h.reading a hp
  | creating name r attempt =>
    rw [hphase] at hp
    exact h.creating a hp
  | writing name r temporary i =>
    rw [hphase] at hp
    obtain ⟨hused, hown, hpending, hempty⟩ := hp
    have hunlink := hown.unlinking hused
    have hinode : (w.proc p).inode = some i := by rw [hphase]; rfl
    simp only [Phase.call]
    split
    · exact h.append hinode (Or.inl rfl) hunlink
    rename_i data hdata
    split
    · exact h.append hinode (Or.inl rfl) hunlink
    · refine h.same (Or.inr hinode.symm) ⟨hused, hown, ?_⟩
      rw [put_files, hempty]
      exact hpending data hdata
  | filling name r temporary i rest =>
    rw [hphase] at hp
    obtain ⟨hused, hown, hdecodes⟩ := hp
    have hunlink := hown.unlinking hused
    have hinode : (w.proc p).inode = some i := by rw [hphase]; rfl
    simp only [Phase.call]
    split
    · exact h.append hinode (Or.inl rfl) hunlink
    split
    · rename_i hrest
      rw [hrest, List.append_nil] at hdecodes
      exact h.same (Or.inr hinode.symm) ⟨hused, hown, hdecodes⟩
    · refine h.append hinode (Or.inr hinode.symm) ⟨hused, hown, ?_⟩
      rw [put_files, append_contents_self, List.append_assoc, List.take_append_drop]
      exact hdecodes
  | publishing name r temporary i =>
    rw [hphase] at hp
    obtain ⟨hused, hown, hdecodes⟩ := hp
    simp only [Phase.call]
    split
    · exact h.same (Or.inl rfl) (hown.unlinking hused)
    · exact h.publish (by rw [hphase]; rfl) hused hown hdecodes
  | unlinking temporary =>
    rw [hphase] at hp
    obtain ⟨name, k, hused, rfl⟩ := hp
    simp only [Phase.call]
    split
    · exact h.failed
    · exact h.unlink fun q hq m j _ => temporary_ne hq m name j k
  | removing name =>
    rw [hphase] at hp
    simp only [Phase.call]
    split
    · exact h.failed
    · exact h.unlink fun q hq m j hm hname => R.apart m name hm hp q j hname.symm

theorem World.Sound.crash (h : w.Sound R) : (w.step (.crash p)).Sound R := h.same (Or.inl rfl) trivial

theorem World.Sound.begin (h : w.Sound R) {name : Text}
    (hstart : tdValidateName name TINYDOCKER_MAX_CONTAINER_NAME = .ok () → (w.put p w.files phase).Sound R) :
    (w.begin p name phase).Sound R := by
  unfold World.begin
  split
  · exact h
  split
  · exact h.failed
  · rename_i hvalid
    exact hstart (not_not.1 hvalid)

end Step

/-- What the callers may ask for: a record to be created fits its struct and can be read back. -/
def Action.Allowed (R : Records) : Action → Prop
  | .read _ task name => Reads R task name
  | .create _ name r => R.used name ∧ r.Fits ∧ r.Readable ∧ R.pending name r
  | .remove _ name => R.used name
  | .call _ _ | .crash _ => True

theorem pending_created {R : Records} {name : Text} {r : StatusRecord} (hfits : r.Fits) (hread : r.Readable)
    (hname : tdValidateName name TINYDOCKER_MAX_CONTAINER_NAME = .ok () ∧ name = r.name) (h : R.pending name r) :
    Pending R name r := by
  obtain ⟨hvalid, rfl⟩ := hname
  intro data hdata
  obtain ⟨hw, rfl⟩ := tdWriteContainerInfo_iff.1 hdata
  have hwrite := (@writeContainerInfo_iff true r.name r none _).2 ⟨rfl, hvalid, rfl, hw, rfl⟩
  exact ⟨(read_written_iff hfits hwrite).2 hread,
    ⟨hw.image.2, hw.command.2, fun v hv => ⟨hread.volumes v hv, (hw.volumes v hv).2⟩, hread.containerId.2,
      hread.created.2, hread.ipAddr.2⟩, h⟩

theorem World.Sound.step {R : Records} {w : World} (h : w.Sound R) {a : Action} (ha : a.Allowed R) :
    (w.step a).Sound R := by
  cases a with
  | call p a => exact h.call a
  | crash p => exact h.crash
  | read p task name => exact h.begin fun _ => h.same (Or.inl rfl) ha
  | remove p name => exact h.begin fun _ => h.same (Or.inl rfl) ha
  | create p name r =>
    obtain ⟨hused, hfits, hread, hpending⟩ := ha
    refine h.begin fun hvalid => ?_
    by_cases hname : name = r.name
    · exact h.start hused (pending_created hfits hread ⟨hvalid, hname⟩ hpending)
    · unfold startWrite
      rw [if_pos (Or.inr hname)]
      exact h.failed

def World.run (w : World) (acts : List Action) : World := Runs.run World.step w acts

theorem World.Sound.run {R : Records} {w : World} (h : w.Sound R) {acts : List Action}
    (ha : ∀ a ∈ acts, a.Allowed R) : (w.run acts).Sound R :=
  Runs.run_inv (fun _ _ h ha => h.step ha) h (Runs.meets_of_mem ha)

end Shared

end TinyDocker
