import TinyDocker.Docker.SharedFiles

/-!
# Metadata under concurrent commands (`docker/status_info.c`)

What the invariant of `SharedFiles` gives when it is started with files that are whole, and with more known about
the records of one name.

Principal results:

* `shared_metadata` — every metadata file is at all times a whole record, and no read of one goes wrong;
* `status_leaves_running` — processes that update and refresh in between change nothing but the status, which
  does not come back to `RUNNING`;
* `removed_stays_removed` — but only if nobody is between `open` and `rename`;
* `solo_task` — a task that nobody disturbs does what `StatusFile` says.
-/

set_option autoImplicit false

namespace TinyDocker

open CText Inodes

namespace Shared

/-! ## Starting, and knowing more about one name -/

/-- All files under names in use are whole, and no process is at work. -/
structure StartOk (used : Text → Prop) (w : World) : Prop where
  apart : Apart used
  once : w.files.Once
  free : ∀ p, (w.proc p).free = true
  good : ∀ name inode, used name → w.files.dir name = some inode →
    Good (fun _ _ => True) name (w.files.contents inode)

theorem free_inode {phase : Phase} (h : phase.free = true) : phase.inode = none := by
  cases phase with
  | idle => rfl
  | returned info => rfl
  | _ => cases h

theorem free_sound {phase : Phase} (h : phase.free = true) (R : Records) (w : World) (p : Pid) :
    phase.Sound R w p := by
  cases phase with
  | idle => trivial
  | returned info => trivial
  | _ => cases h

theorem StartOk.sound {used : Text → Prop} {w : World} (h : StartOk used w) (R : Records) (hR : R.used = used)
    (hcurrent : ∀ name inode r, used name → w.files.dir name = some inode →
      StatusFile.readContainerInfo name (some (w.files.contents inode)) = some r → R.current name r) :
    w.Sound R := by
  refine ⟨h.once, fun name inode hused hdir => ⟨⟨h.once.fresh name inode hdir, fun q hq => ?_⟩, ?_⟩, fun q =>
    free_sound (h.free q) R w q⟩
  · rw [free_inode (h.free q)] at hq
    cases hq
  · rw [hR] at hused
    obtain ⟨r, hread, hr, -⟩ := h.good name inode hused hdir
    exact ⟨r, hread, hr, hcurrent name inode r hused hdir hread⟩

/-- The process has opened the file of that name, or is about to write it. -/
def Phase.Holds (name : Text) : Phase → Prop
  | .opened _ m _ | .reading _ m _ _ _ | .creating m _ _ | .writing m _ _ _ | .filling m _ _ _ _
  | .publishing m _ _ _ => m = name
  | _ => False

theorem Decodes.mono {P Q : Text → StatusRecord → Prop} {name data : Text} {r : StatusRecord}
    (h : Decodes P name r data) (hPQ : P name r → Q name r) : Decodes Q name r data := ⟨h.1, h.2.1, hPQ h.2.2⟩

/-- What is known about the records in flight may be narrowed to what the processes at work allow. -/
theorem Phase.Sound.narrow {R R' : Records} {w : World} {p : Pid} {phase : Phase} (hused : R'.used = R.used)
    (hheld : ∀ m r, phase.Holds m → R.held m r → R'.held m r)
    (hpending : ∀ m r, phase.Holds m → R.pending m r → R'.pending m r) (h : phase.Sound R w p) :
    phase.Sound R' w p := by
  cases phase with
  | idle => trivial
  | returned info => trivial
  | opening task name => exact ⟨h.1, hused ▸ h.2⟩
  | removing name =>
    have hname : R.used name := h
    exact show R'.used name from hused ▸ hname
  | unlinking temporary =>
    obtain ⟨name, k, hname, htemporary⟩ := h
    exact ⟨name, k, hused ▸ hname, htemporary⟩
  | opened task name i =>
    obtain ⟨hreads, hfile⟩ := h
    refine ⟨⟨hreads.1, hused ▸ hreads.2⟩, fun hname => ?_⟩
    obtain ⟨hfrozen, r, hr⟩ := hfile (hused ▸ hname)
    exact ⟨hfrozen, r, hr.mono (hheld name r rfl)⟩
  | reading task name i size data =>
    obtain ⟨hreads, hfile⟩ := h
    refine ⟨⟨hreads.1, hused ▸ hreads.2⟩, fun hname => ?_⟩
    obtain ⟨hfrozen, ⟨r, hr⟩, hrest⟩ := hfile (hused ▸ hname)
    exact ⟨hfrozen, ⟨r, hr.mono (hheld name r rfl)⟩, hrest⟩
  | creating name r attempt =>
    obtain ⟨hname, hvalid, hattempt, hr⟩ := h
    exact ⟨hused ▸ hname, hvalid, hattempt, fun data hdata => (hr data hdata).mono (hpending name r rfl)⟩
  | writing name r temporary i =>
    obtain ⟨hname, hown, hr, hempty⟩ := h
    exact ⟨hused ▸ hname, hown, fun data hdata => (hr data hdata).mono (hpending name r rfl), hempty⟩
  | filling name r temporary i rest =>
    obtain ⟨hname, hown, hr⟩ := h
    exact ⟨hused ▸ hname, hown, hr.mono (hpending name r rfl)⟩
  | publishing name r temporary i =>
    obtain ⟨hname, hown, hr⟩ := h
    exact ⟨hused ▸ hname, hown, hr.mono (hpending name r rfl)⟩

theorem World.Sound.narrow {R R' : Records} {w : World} (h : w.Sound R) (hused : R'.used = R.used)
    (hcurrent : ∀ name inode r, R.used name → w.files.dir name = some inode →
      Decodes R.current name r (w.files.contents inode) → R'.current name r)
    (hheld : ∀ q m r, (w.proc q).Holds m → R.held m r → R'.held m r)
    (hpending : ∀ q m r, (w.proc q).Holds m → R.pending m r → R'.pending m r) : w.Sound R' := by
  refine ⟨h.once, fun name inode hname hdir => ?_, fun q => (h.proc q).narrow hused (hheld q) (hpending q)⟩
  rw [hused] at hname
  obtain ⟨hfrozen, r, hr⟩ := h.stored name inode hname hdir
  exact ⟨hfrozen, r, hr.mono fun _ => hcurrent name inode r hname hdir hr⟩

/-- Any records may stand under any name. -/
def Records.all (used : Text → Prop) (hapart : Apart used) : Records :=
  ⟨used, fun _ _ => True, fun _ _ => True, fun _ _ => True, hapart, fun _ _ _ => trivial, fun _ _ _ => trivial,
    fun _ _ _ _ _ _ _ => trivial⟩

/-- The records of one name; the others may have any. -/
def Records.one (used : Text → Prop) (hapart : Apart used) (n : Text) (H C P : StatusRecord → Prop)
    (hCH : ∀ r, C r → H r) (hPC : ∀ r, P r → C r)
    (hrewritten : ∀ (task : Task) r r', task.FromCallers → H r → task.rewritten r = some r' → P r') : Records where
  used := used
  held m r := m = n → H r
  current m r := m = n → C r
  pending m r := m = n → P r
  apart := hapart
  current_held _ r h hm := hCH r (h hm)
  pending_current _ r h hm := hPC r (h hm)
  rewritten task _ r r' htask h hr' hm := hrewritten task r r' htask (h hm) hr'

/-- What the commands ask for. -/
def Action.Uses (used : Text → Prop) : Action → Prop
  | .read _ task name => task.FromCallers ∧ (task = .read ∨ used name)
  | .create _ name r => used name ∧ r.Fits ∧ r.Readable
  | .remove _ name => used name
  | .call _ _ | .crash _ => True

def Action.Creates (name : Text) : Action → Prop
  | .create _ m _ => m = name
  | _ => False

theorem Action.Uses.allowed {used : Text → Prop} {R : Records} {a : Action} (h : a.Uses used) (hR : R.used = used)
    (hcreate : ∀ m r, a.Creates m → R.pending m r) : a.Allowed R := by
  subst hR
  cases a with
  | read p task name => exact h
  | create p name r => exact ⟨h.1, h.2.1, h.2.2, hcreate name r rfl⟩
  | remove p name => exact h
  | call p a => trivial
  | crash p => trivial

/-- `docker_run` creates a record that can be read back. -/
theorem created_uses {used : Text → Prop} {args : RunArguments} {pid : Nat} {startTime : Option Nat}
    {address : UInt32} {timestamp : Int} {time : BrokenDownTime} {info : ContainerInfo} (p : Pid)
    (hused : used info.name) (hargs : args.CStrings) (hpid : (pid : Int) ≤ INT_MAX)
    (hstart : ∀ t ∈ startTime, t < 2 ^ 64) (hname : tdValidateName info.name 127 = .ok ())
    (hcreate : createContainerInfo args pid startTime .running (Ipv4.inetNtop address) timestamp
      (timestampToString time) = some info) : (Action.create p info.name info.toRecord).Uses used :=
  ⟨hused, created_shape hargs hpid hstart hname hcreate⟩

theorem run_append (w : World) (before after : List Action) : w.run (before ++ after) = (w.run before).run after :=
  Runs.run_append before after w

/-! ## Reading -/

section Results

variable {used : Text → Prop} {w : World}

theorem StartOk.run (h : StartOk used w) {acts : List Action} (hacts : ∀ a ∈ acts, a.Uses used) :
    (w.run acts).Sound (Records.all used h.apart) :=
  (h.sound (Records.all used h.apart) rfl fun _ _ _ _ _ _ => trivial).run fun a ha =>
    (hacts a ha).allowed rfl fun _ _ _ => trivial

/-- A file that has been opened is read to its end, and is a whole record. -/
theorem World.Sound.reads {R : Records} (h : w.Sound R) {p : Pid} {task : Task} {name : Text} {i size : Nat}
    {data : Text} (hphase : w.proc p = .reading task name i size data) (hused : R.used name) :
    ∃ r, StatusFile.readContainerInfo name (some (w.files.contents i)) = some r ∧
      ∀ a : Answer, a.fails = false → 0 < a.count →
        (∃ data', (w.step (.call p a)).proc p = .reading task name i size data' ∧
          (a.interrupted = true ∨ data.length < data'.length)) ∨
        (w.step (.call p a)).proc p = task.proceed name r := by
  have hp := h.proc p
  rw [hphase] at hp
  obtain ⟨-, hgood, rfl, hdata⟩ := hp.2 hused
  obtain ⟨r, hparse, ⟨hread, -⟩, -⟩ := read_decodes hgood
  refine ⟨r, hread, fun a hfails hcount => ?_⟩
  unfold World.step
  simp only [put_self, hphase, Phase.call]
  split
  · rename_i hlt
    left
    split
    · rename_i hinterrupted
      exact ⟨data, rfl, Or.inl hinterrupted⟩
    have hpiece : 0 < (((w.files.contents i).drop data.length).take
        (min a.count ((w.files.contents i).length - data.length))).length := by
      rw [List.length_take, List.length_drop]
      omega
    rw [if_neg (by
      rintro (hfail | hnil)
      · rw [hfails] at hfail
        cases hfail
      · rw [hnil] at hpiece
        cases hpiece)]
    refine ⟨_, rfl, Or.inr ?_⟩
    rw [List.length_append]
    omega
  · rename_i hlen
    right
    rw [read_whole hdata hlen, hparse]

/-- **Shared metadata.**  Whatever processes do at once, where no name in use is a temporary name of another:
every metadata file is at all times a whole record, and a process that has opened one gets a record unless a call
fails. -/
theorem shared_metadata (acts : List Action) (hstart : StartOk used w) (hacts : ∀ a ∈ acts, a.Uses used) :
    (∀ name i, used name → (w.run acts).files.dir name = some i →
      ∃ r, StatusFile.readContainerInfo name (some ((w.run acts).files.contents i)) = some r) ∧
    (∀ p task name i, used name → (w.run acts).proc p = .opened task name i → ∀ a : Answer, a.fails = false →
      ∃ size, ((w.run acts).step (.call p a)).proc p = .reading task name i size []) ∧
    ∀ p task name i size data, used name → (w.run acts).proc p = .reading task name i size data →
      ∃ r, StatusFile.readContainerInfo name (some ((w.run acts).files.contents i)) = some r ∧
        ∀ a : Answer, a.fails = false → 0 < a.count →
          (∃ data', ((w.run acts).step (.call p a)).proc p = .reading task name i size data' ∧
            (a.interrupted = true ∨ data.length < data'.length)) ∨
          ((w.run acts).step (.call p a)).proc p = task.proceed name r := by
  have h := hstart.run hacts
  refine ⟨fun name i hused hdir => ?_, fun p task name i hused hphase a hfails => ?_,
    fun p task name i size data hused hphase => h.reads hphase hused⟩
  · obtain ⟨-, r, hread, -⟩ := h.stored name i hused hdir
    exact ⟨r, hread⟩
  · have hp := h.proc p
    rw [hphase] at hp
    obtain ⟨-, -, -, hsize⟩ := read_decodes (hp.2 hused).2
    refine ⟨((w.run acts).files.contents i).length, ?_⟩
    unfold World.step
    simp only [put_self, hphase, Phase.call]
    rw [if_neg (by
      rintro (hfail | hlong)
      · rw [hfails] at hfail
        cases hfail
      · exact absurd hsize (Nat.not_le.2 hlong))]

/-! ## Only the status changes -/

theorem rewritten_withStatus {base : StatusRecord} (task : Task) (r r' : StatusRecord) (htask : task.FromCallers)
    (hr : ∃ s, r = base.withStatus s) (hr' : task.rewritten r = some r') :
    ∃ s, s ≠ ContainerStatus.running ∧ r' = base.withStatus s := by
  obtain ⟨s, rfl⟩ := hr
  obtain ⟨status, rfl, hstatus⟩ := Task.rewritten_cases hr'
  refine ⟨status, ?_, rfl⟩
  rcases hstatus with rfl | rfl
  · decide
  · exact fun hrunning => htask (by rw [hrunning])

/-- **The status leaves `RUNNING` for good.**  As long as nobody creates a record of that name, updates and refreshes
change nothing but its status, and once it is not `RUNNING`, it never is again, although processes may still have
the old record. -/
theorem status_leaves_running (n : Text) (base : StatusRecord) (before after : List Action)
    (hstart : StartOk used w) (hn : used n)
    (hbase : ∀ i, w.files.dir n = some i → ∃ s,
      StatusFile.readContainerInfo n (some (w.files.contents i)) = some (base.withStatus s))
    (hacts : ∀ a ∈ before ++ after, a.Uses used ∧ ¬ a.Creates n) :
    (∀ i, (w.run before).files.dir n = some i → ∃ s,
      StatusFile.readContainerInfo n (some ((w.run before).files.contents i)) = some (base.withStatus s)) ∧
    ((∀ i, (w.run before).files.dir n = some i →
        StatusFile.readContainerInfo n (some ((w.run before).files.contents i)) ≠
          some (base.withStatus .running)) →
      ∀ i, (w.run (before ++ after)).files.dir n = some i → ∃ s, s ≠ ContainerStatus.running ∧
        StatusFile.readContainerInfo n (some ((w.run (before ++ after)).files.contents i)) =
          some (base.withStatus s)) := by
  let version : StatusRecord → Prop := fun r => ∃ s, r = base.withStatus s
  let left : StatusRecord → Prop := fun r => ∃ s, s ≠ ContainerStatus.running ∧ r = base.withStatus s
  have hleft : ∀ r, left r → version r := fun r ⟨s, _, hr⟩ => ⟨s, hr⟩
  let R := Records.one used hstart.apart n version version left (fun _ h => h) hleft rewritten_withStatus
  let R' := Records.one used hstart.apart n version left left hleft (fun _ h => h) rewritten_withStatus
  have hallowed : ∀ a ∈ before ++ after, a.Allowed R ∧ a.Allowed R' := fun a ha =>
    ⟨(hacts a ha).1.allowed rfl fun m r hm hmn => absurd (hmn ▸ hm) (hacts a ha).2,
      (hacts a ha).1.allowed rfl fun m r hm hmn => absurd (hmn ▸ hm) (hacts a ha).2⟩
  have hmid : (w.run before).Sound R := by
    refine (hstart.sound R rfl ?_).run fun a ha => (hallowed a (List.mem_append_left _ ha)).1
    rintro name i r - hdir hread rfl
    obtain ⟨s, hs⟩ := hbase i hdir
    exact ⟨s, Option.some.inj (hread.symm.trans hs)⟩
  refine ⟨fun i hdir => ?_, fun hnot i hdir => ?_⟩
  · obtain ⟨-, r, hread, -, hr⟩ := hmid.stored n i hn hdir
    obtain ⟨s, rfl⟩ := hr rfl
    exact ⟨s, hread⟩
  · have hmid' : (w.run before).Sound R' := by
      refine hmid.narrow rfl ?_ (fun _ _ _ _ h => h) fun _ _ _ _ h => h
      rintro name j r - hj ⟨hread, -, hr⟩ rfl
      obtain ⟨s, rfl⟩ := hr rfl
      refine ⟨s, ?_, rfl⟩
      rintro rfl
      exact hnot j hj hread
    rw [run_append] at hdir ⊢
    have hend := hmid'.run fun a ha => (hallowed a (List.mem_append_right _ ha)).2
    obtain ⟨-, r, hread, -, hr⟩ := hend.stored n i hn hdir
    obtain ⟨s, hs, rfl⟩ := hr rfl
    exact ⟨s, hs, hread⟩

/-! ## Removal -/

/-- **A removed record stays removed** until it is created again, if no process has the file open or is about to
write it. -/
theorem removed_stays_removed (n : Text) (before after : List Action) (hstart : StartOk used w) (hn : used n)
    (hbefore : ∀ a ∈ before, a.Uses used) (hafter : ∀ a ∈ after, a.Uses used ∧ ¬ a.Creates n)
    (hgone : (w.run before).files.dir n = none) (hquiet : ∀ p, ¬ ((w.run before).proc p).Holds n) :
    (w.run (before ++ after)).files.dir n = none := by
  let R := Records.one used hstart.apart n (fun _ => False) (fun _ => False) (fun _ => False) (fun _ h => h)
    (fun _ h => h) fun _ _ _ _ h _ => h
  have hmid : (w.run before).Sound R := by
    refine (hstart.run hbefore).narrow rfl ?_ ?_ ?_
    · rintro name i r - hdir - rfl
      rw [hgone] at hdir
      cases hdir
    · rintro q m r hholds - rfl
      exact hquiet q hholds
    · rintro q m r hholds - rfl
      exact hquiet q hholds
  rw [run_append]
  have hend := hmid.run fun a ha => (hafter a ha).1.allowed rfl fun m r hm hmn => absurd (hmn ▸ hm) (hafter a ha).2
  cases hdir : ((w.run before).run after).files.dir n with
  | none => rfl
  | some i =>
    obtain ⟨-, r, -, -, hr⟩ := hend.stored n i hn hdir
    exact absurd (hr rfl) id

end Results

/-! ## A task on its own -/

section Solo

variable {p : Pid} {a : Answer} {f : MetadataFiles} {name : Text} {i : Nat}

/-- The calls of one process while the others stand still. -/
def calls (p : Pid) (a : Answer) : Nat → MetadataFiles × Phase → MetadataFiles × Phase
  | 0, s => s
  | n + 1, s => calls p a n (s.2.call p s.1 a)

theorem calls_step {n : Nat} {f' : MetadataFiles} {phase phase' : Phase} (h : phase.call p f a = (f', phase')) :
    calls p a (n + 1) (f, phase) = calls p a n (f', phase') := by
  rw [← h]
  rfl

theorem calls_returned (info : Option StatusRecord) : ∀ n, calls p a n (f, .returned info) = (f, .returned info)
  | 0 => rfl
  | n + 1 => calls_returned info n

theorem calls_add (m n : Nat) (s : MetadataFiles × Phase) : calls p a (m + n) s = calls p a n (calls p a m s) := by
  induction m generalizing s with
  | zero =>
    rw [Nat.zero_add]
    rfl
  | succ m ih =>
    rw [Nat.succ_add]
    exact ih _

theorem run_cons (w : World) (first : Action) (acts : List Action) : w.run (first :: acts) = (w.step first).run acts :=
  List.foldl_cons ..

theorem run_calls (w : World) (n : Nat) (s : MetadataFiles × Phase) :
    (w.put p s.1 s.2).run (List.replicate n (.call p a)) = w.put p (calls p a n s).1 (calls p a n s).2 := by
  induction n generalizing s with
  | zero => rfl
  | succ n ih =>
    have hstep : (w.put p s.1 s.2).step (.call p a) = w.put p (s.2.call p s.1 a).1 (s.2.call p s.1 a).2 := by
      unfold World.step
      simp only [put_self, put_files]
      unfold World.put
      rw [Function.update_idem]
    rw [List.replicate_succ, run_cons, hstep, ih]
    rfl

/-- What stands under a name. -/
def stored (name : Text) (f : MetadataFiles) : Option Text := (f.dir name).map f.contents

/-- Every call is answered in full. -/
structure Full (a : Answer) : Prop where
  fails : a.fails = false
  interrupted : a.interrupted = false
  count : StatusFile.MAX_METADATA_SIZE ≤ a.count

/-- The calls of `read_container_info`. -/
theorem calls_read (ha : Full a) (task : Task) (hdir : f.dir name = some i)
    (hvalid : tdValidateName name TINYDOCKER_MAX_CONTAINER_NAME = .ok ()) :
    ∃ k, k ≤ 4 ∧ calls p a k (f, .opening task name) =
      (f, match StatusFile.readContainerInfo name (some (f.contents i)) with
        | none => .returned none
        | some r => task.proceed name r) := by
  have hopening : (Phase.opening task name).call p f a = (f, .opened task name i) := by
    simp only [Phase.call, ha.fails, Bool.false_eq_true, if_false, hdir]
  by_cases hsize : StatusFile.MAX_METADATA_SIZE < (f.contents i).length
  · have hlong : (Phase.opened task name i).call p f a = (f, .returned none) := by
      simp only [Phase.call, hsize, or_true, if_true]
    refine ⟨2, by decide, (calls_step hopening).trans ((calls_step hlong).trans ?_)⟩
    simp only [calls, StatusFile.readContainerInfo, hvalid, ne_eq, not_true_eq_false, if_false, if_pos hsize]
  have hopened : (Phase.opened task name i).call p f a = (f, .reading task name i (f.contents i).length []) := by
    simp only [Phase.call, ha.fails, Bool.false_eq_true, false_or, if_neg hsize]
  have hend : (Phase.reading task name i (f.contents i).length (f.contents i)).call p f a =
      (f, match StatusFile.readContainerInfo name (some (f.contents i)) with
        | none => .returned none
        | some r => task.proceed name r) := by
    simp only [Phase.call, Nat.lt_irrefl, if_false, StatusFile.readContainerInfo, hvalid, ne_eq, not_true_eq_false,
      if_neg hsize]
    cases tdParseContainerInfo (f.contents i) name <;> rfl
  by_cases hempty : f.contents i = []
  · rw [hempty] at hopened hend ⊢
    exact ⟨3, by decide, (calls_step hopening).trans ((calls_step hopened).trans (calls_step hend))⟩
  · have hread : (Phase.reading task name i (f.contents i).length []).call p f a =
        (f, .reading task name i (f.contents i).length (f.contents i)) := by
      have hpiece : ((f.contents i).drop 0).take (min a.count ((f.contents i).length - 0)) = f.contents i := by
        rw [List.drop_zero, List.take_of_length_le]
        have := ha.count
        omega
      simp only [Phase.call, List.length_nil, List.length_pos_iff.2 hempty, if_true, ha.interrupted, ha.fails,
        Bool.false_eq_true, if_false, hpiece, false_or, hempty, List.nil_append]
    exact ⟨4, by decide, (calls_step hopening).trans ((calls_step hopened).trans
      ((calls_step hread).trans (calls_step hend)))⟩

theorem written_ne_nil {r : StatusRecord} {data : Text} (h : tdWriteContainerInfo r = .ok data) : data ≠ [] := by
  obtain ⟨-, rfl⟩ := tdWriteContainerInfo_iff.1 h
  simp [headerLines]

/-- The writer refuses the record, and the file stays as it was. -/
theorem calls_refused (ha : Full a) {r : StatusRecord} {temporary : Text} {e : String}
    (hdata : tdWriteContainerInfo r = .error e) (hdir : f.dir name = some i) (hi : i < f.next)
    (hname : name ≠ temporary) (n : Nat) :
    stored name (calls p a (2 + n) (f.create temporary, .writing name r temporary f.next)).1 =
      some (f.contents i) := by
  have hwriting : (Phase.writing name r temporary f.next).call p (f.create temporary) a =
      ((f.create temporary).append f.next a.written, .unlinking temporary) := by
    simp only [Phase.call, hdata]
  have hunlinking : (Phase.unlinking temporary).call p ((f.create temporary).append f.next a.written) a =
      (((f.create temporary).append f.next a.written).unlink temporary, .returned none) := by
    simp only [Phase.call, ha.fails, Bool.false_eq_true, if_false]
  rw [calls_add, (calls_step hwriting).trans (calls_step hunlinking), calls_returned, calls_returned]
  unfold stored
  simp only
  have hsame : ((f.create temporary).append f.next a.written).dir name = some i := (create_of_ne hname).trans hdir
  rw [unlink_of_ne hname, hsame, Option.map_some]
  have hkeep : ((f.create temporary).append f.next a.written).contents i = (f.create temporary).contents i :=
    append_contents_of_ne (Nat.ne_of_lt hi)
  exact congrArg some (hkeep.trans (create_contents hi))

/-- The text goes to the temporary file, which then gets the name. -/
theorem calls_written (ha : Full a) {r : StatusRecord} {temporary data : Text}
    (hdata : tdWriteContainerInfo r = .ok data) (hlength : data.length ≤ StatusFile.MAX_METADATA_SIZE) (n : Nat) :
    stored name (calls p a (4 + n) (f.create temporary, .writing name r temporary f.next)).1 = some data := by
  have hne := written_ne_nil hdata
  have hwhole : data.take a.count = data := List.take_of_length_le (hlength.trans ha.count)
  have hrest : data.drop a.count = [] := List.drop_eq_nil_of_le (hlength.trans ha.count)
  have hthere : ((f.create temporary).append f.next data).dir temporary = some f.next := Function.update_self ..
  have hwriting : (Phase.writing name r temporary f.next).call p (f.create temporary) a =
      (f.create temporary, .filling name r temporary f.next data) := by
    simp only [Phase.call, hdata, ha.fails, Bool.false_eq_true, if_false]
  have hfilling : (Phase.filling name r temporary f.next data).call p (f.create temporary) a =
      ((f.create temporary).append f.next data, .filling name r temporary f.next []) := by
    simp only [Phase.call, ha.fails, Bool.false_eq_true, if_false, hne, hwhole, hrest]
  have hfilled : (Phase.filling name r temporary f.next []).call p ((f.create temporary).append f.next data) a =
      ((f.create temporary).append f.next data, .publishing name r temporary f.next) := by
    simp only [Phase.call, ha.fails, Bool.false_eq_true, if_false, if_true]
  have hpublishing : (Phase.publishing name r temporary f.next).call p ((f.create temporary).append f.next data) a =
      (((f.create temporary).append f.next data).rename temporary name, .returned (some r)) := by
    simp only [Phase.call, ha.fails, Bool.false_eq_true, false_or, hthere, reduceCtorEq, if_false]
  rw [calls_add, (calls_step hwriting).trans ((calls_step hfilling).trans ((calls_step hfilled).trans
    (calls_step hpublishing))), calls_returned, calls_returned]
  unfold stored
  have hnew : (((f.create temporary).append f.next data).rename temporary name).dir name = some f.next :=
    (Function.update_self ..).trans hthere
  have hcontents : (f.create temporary).contents f.next = [] := Function.update_self ..
  rw [hnew, Option.map_some]
  exact congrArg some (append_contents_self.trans (by rw [hcontents, List.nil_append]))

/-- The calls of `write_container_info`. -/
theorem calls_write (ha : Full a) {r : StatusRecord} (hdir : f.dir name = some i) (hi : i < f.next)
    (hfree : f.dir (StatusDir.temporaryName name p 0) = none)
    (hlength : ∀ data, tdWriteContainerInfo r = .ok data → data.length ≤ StatusFile.MAX_METADATA_SIZE) {n : Nat}
    (hn : 5 ≤ n) :
    stored name (calls p a n (f, startWrite name r)).1 =
      (StatusFile.writeContainerInfo true name r (some (f.contents i))).1 := by
  unfold StatusFile.writeContainerInfo startWrite
  split
  · rw [calls_returned]
    unfold stored
    rw [hdir]
    rfl
  rename_i hvalid
  rw [not_or, not_not] at hvalid
  have hfits := StatusDir.temporaryName_length (tdValidateName_ok hvalid.1).2.1 p.isLt (by decide : 0 < 100)
  have hcreating : (Phase.creating name r 0).call p f a = (f.create (StatusDir.temporaryName name p 0),
      .writing name r (StatusDir.temporaryName name p 0) f.next) := by
    simp only [Phase.call, if_neg (Nat.not_le.2 hfits), ha.fails, Bool.false_eq_true, if_false, hfree]
  obtain ⟨k, rfl⟩ := Nat.exists_eq_add_of_le hn
  cases hdata : tdWriteContainerInfo r with
  | error e =>
    rw [show 5 + k = 2 + (2 + k) + 1 by omega, calls_step hcreating]
    exact calls_refused ha hdata hdir hi (StatusDir.temporaryName_ne name p 0).symm (2 + k)
  | ok data =>
    rw [show 5 + k = 4 + k + 1 by omega, calls_step hcreating]
    exact calls_written ha hdata (hlength data hdata) k

/-- The task as an event of one file. -/
def Task.event : Task → Option StatusEvent
  | .read => none
  | .update status => some (.update true status)
  | .refresh lookup => some (.refresh true lookup)

theorem event_effect (task : Task) (hname : name ≠ []) (text : Text) :
    (match task.event with
      | none => some text
      | some ev => StatusFile.step name (some text) ev) =
    match StatusFile.readContainerInfo name (some text) with
    | none => some text
    | some r => match task.rewritten r with
      | none => some text
      | some r' => (StatusFile.writeContainerInfo true name r' (some text)).1 := by
  cases task with
  | read => cases StatusFile.readContainerInfo name (some text) <;> rfl
  | update status =>
    simp only [Task.event, StatusFile.step, StatusFile.updateContainerStatus]
    cases StatusFile.readContainerInfo name (some text) <;> rfl
  | refresh lookup =>
    simp only [Task.event, StatusFile.step]
    cases StatusFile.readContainerInfo name (some text) with
    | none => rfl
    | some r => exact refresh_rewritten true lookup r (some text) hname

/-- **A task on its own** does to an existing file what `StatusFile` says, if its first temporary name is free. -/
theorem solo_task (w : World) (task : Task) (ha : Full a) (hproc : (w.proc p).free = true)
    (hdir : w.files.dir name = some i) (hi : i < w.files.next)
    (hfree : w.files.dir (StatusDir.temporaryName name p 0) = none) (hname : name ≠ []) :
    stored name (w.run (.read p task name :: List.replicate 9 (.call p a))).files =
      match task.event with
      | none => some (w.files.contents i)
      | some ev => StatusFile.step name (some (w.files.contents i)) ev := by
  have hold : stored name w.files = some (w.files.contents i) := by
    unfold stored
    rw [hdir]
    rfl
  have hbegin : w.step (.read p task name) = w.begin p name (.opening task name) := rfl
  rw [event_effect task hname, run_cons, hbegin]
  unfold World.begin
  rw [if_neg (by rw [hproc]; decide)]
  split
  · rename_i hvalid
    rw [run_calls w 9 (w.files, .returned none), calls_returned]
    simp only [StatusFile.readContainerInfo, if_pos hvalid]
    exact hold
  · rename_i hvalid
    rw [not_not] at hvalid
    rw [run_calls w 9 (w.files, .opening task name)]
    obtain ⟨k, hk, hcalls⟩ := @calls_read p a w.files name i ha task hdir hvalid
    have hnine : 9 = k + (9 - k) := by omega
    rw [hnine, calls_add, hcalls]
    simp only [put_files]
    cases hread : StatusFile.readContainerInfo name (some (w.files.contents i)) with
    | none =>
      simp only [calls_returned]
      exact hold
    | some r =>
      simp only [Task.proceed]
      cases hr' : task.rewritten r with
      | none =>
        simp only [calls_returned]
        exact hold
      | some r' =>
        refine calls_write ha hdir hi hfree (fun data hdata => ?_) (by omega)
        obtain ⟨status, rfl, -⟩ := Task.rewritten_cases hr'
        have hparsed := (parsed_of_read hread).1.withStatus status
        obtain ⟨hw, rfl⟩ := tdWriteContainerInfo_iff.1 hdata
        exact written_length hparsed.fits hw hparsed.detach

end Solo

/-! ## A record that comes back -/

def sampleData : Text :=
  (headerLines (sampleRecord [ "/v:/d:rw".toList]) ++ [ "/v:/d:rw".toList]).flatMap (· ++ ['\n'])

/-- One running container, whose process is gone. -/
def sharedStart : World := ⟨⟨fun n => if n = "c".toList then some 0 else none, fun _ => sampleData, 1⟩, fun _ => .idle⟩

/-- A call answered in full. -/
def done : Answer := ⟨false, false, 1048576, []⟩

/-- A task up to its `n`-th call. -/
def taskCalls (p : Pid) (task : Task) (n : Nat) : List Action :=
  .read p task "c".toList :: List.replicate n (.call p done)

def refreshCalls (n : Nat) : List Action := taskCalls 5 (.refresh .gone) n

def removal : List Action := [.remove 6 "c".toList, .call 6 done]

theorem sampleData_read : StatusFile.readContainerInfo "c".toList (some sampleData) =
    some ((sampleRecord [ "/v:/d:rw".toList]).withStatus .running) := by
  decide +kernel

theorem sharedStart_ok : StartOk (· = "c".toList) sharedStart := by
  refine ⟨?_, ⟨?_, ?_⟩, fun _ => rfl, ?_⟩
  · rintro m n rfl rfl p k h
    exact StatusDir.temporaryName_ne _ p k h.symm
  · intro a b i ha hb
    unfold sharedStart at ha hb
    simp only at ha hb
    split at ha
    · rename_i hac
      split at hb
      · rename_i hbc
        exact hac.trans hbc.symm
      · cases hb
    · cases ha
  · intro a i ha
    unfold sharedStart at ha
    simp only at ha
    split at ha
    · cases ha
      decide
    · cases ha
  · rintro name i rfl -
    exact ⟨sampleRecord [ "/v:/d:rw".toList], sampleData_read,
      ⟨by decide, by decide, by decide, by decide, by decide, by decide⟩, trivial⟩

theorem calls_use {p : Pid} {task : Task} {n : Nat} (htask : task.FromCallers) :
    ∀ a ∈ taskCalls p task n, a.Uses (· = "c".toList) ∧ ¬ a.Creates "c".toList := by
  intro a ha
  rcases List.mem_cons.1 ha with rfl | ha
  · exact ⟨⟨htask, Or.inr rfl⟩, id⟩
  · rw [List.eq_of_mem_replicate ha]
    exact ⟨trivial, id⟩

theorem refresh_uses (n : Nat) : ∀ a ∈ refreshCalls n, a.Uses (· = "c".toList) ∧ ¬ a.Creates "c".toList :=
  calls_use fun h => nomatch h

theorem removal_uses : ∀ a ∈ removal, a.Uses (· = "c".toList) := by
  intro a ha
  rcases List.mem_cons.1 ha with rfl | ha
  · exact rfl
  · rw [List.mem_singleton.1 ha]
    trivial

/-- The file is removed between the `open` and the `read` of a refresh, which gets the record. -/
theorem read_after_removal :
    (sharedStart.run (refreshCalls 2 ++ removal)).files.dir "c".toList = none ∧
      ∃ r, StatusFile.readContainerInfo "c".toList
        (some ((sharedStart.run (refreshCalls 2 ++ removal)).files.contents 0)) = some r := by
  refine ⟨by decide +kernel, ?_⟩
  obtain ⟨r, hread, -⟩ := (shared_metadata (refreshCalls 2 ++ removal) sharedStart_ok fun a ha =>
    (List.mem_append.1 ha).elim (fun h => (refresh_uses 2 a h).1) (removal_uses a)).2.2 5 (.refresh .gone)
    "c".toList 0 sampleData.length [] rfl (by decide +kernel)
  exact ⟨r, hread⟩

/-- `docker ps` finds the process gone, and a `docker stop` follows. -/
theorem stopped_after_exit :
    ∃ s, s ≠ ContainerStatus.running ∧ StatusFile.readContainerInfo "c".toList
      (some ((sharedStart.run (refreshCalls 9 ++ taskCalls 7 (.update .stopped) 9)).files.contents 2)) =
      some ((sampleRecord [ "/v:/d:rw".toList]).withStatus s) := by
  refine (status_leaves_running "c".toList (sampleRecord [ "/v:/d:rw".toList]) (refreshCalls 9)
    (taskCalls 7 (.update .stopped) 9) sharedStart_ok rfl
    (fun i _ => ⟨.running, sampleData_read⟩) fun a ha => (List.mem_append.1 ha).elim
      (refresh_uses 9 a) (@calls_use 7 (.update .stopped) 9 (fun h => nomatch h) a)).2 (fun i hi => ?_) 2 (by decide +kernel)
  obtain rfl : 1 = i := Option.some.inj ((by decide +kernel :
    (sharedStart.run (refreshCalls 9)).files.dir "c".toList = some 1).symm.trans hi)
  decide +kernel

/-- The refresh alone. -/
theorem refresh_alone :
    stored "c".toList (sharedStart.run (refreshCalls 9)).files =
      StatusFile.step "c".toList (some sampleData) (.refresh true .gone) :=
  solo_task sharedStart (.refresh .gone) ⟨rfl, rfl, by decide⟩ rfl rfl (by decide) (by decide +kernel) (by decide)

/-- A refresh that begins after `docker rm` finds nothing; one that has read the record before puts it back, and the
removed container is there again. -/
theorem removed_record_returns :
    (sharedStart.run (removal ++ refreshCalls 9)).files.dir "c".toList = none ∧
      (sharedStart.run (refreshCalls 4 ++ removal)).files.dir "c".toList = none ∧
      (sharedStart.run (refreshCalls 4 ++ removal ++ List.replicate 5 (.call 5 done))).files.dir "c".toList = some 1 ∧
      StatusFile.readContainerInfo "c".toList (some ((sharedStart.run
        (refreshCalls 4 ++ removal ++ List.replicate 5 (.call 5 done))).files.contents 1)) =
          some ((sampleRecord [ "/v:/d:rw".toList]).withStatus .exited) := by
  refine ⟨removed_stays_removed "c".toList removal (refreshCalls 9) sharedStart_ok rfl removal_uses
    (refresh_uses 9) (by decide +kernel) fun p hholds => ?_, by decide +kernel, by decide +kernel,
    by decide +kernel⟩
  have hproc : (sharedStart.run removal).proc =
      Function.update (Function.update (fun _ => Phase.idle) 6 (.removing "c".toList)) 6 (.returned none) := rfl
  rw [hproc, Function.update_apply, Function.update_apply] at hholds
  split at hholds <;> exact hholds

end Shared

end TinyDocker
