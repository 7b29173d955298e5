import TinyDocker.Lib.Runs
import TinyDocker.Docker.Effects

/-!
# Runs of commands

Whole commands executed one after the other, interleaved with what happens outside: processes end,
are reaped, fork, and appear with reused pids; file trees change below the mountpoints.  A
foreground `docker run` leaves an entry in `foreground` that a later `reap` takes up.
-/

set_option autoImplicit false

namespace TinyDocker

open CText MountSpace

/-- A foreground `docker run` that waits for its child. -/
structure Waiting where
  name : Text
  pid : Nat
  start : Nat
  deriving DecidableEq, Repr

structure World where
  host : Host
  foreground : List Waiting

inductive Command where
  | run (env : Env) (args : RunArguments)
  | reap (env : Env) (k : Nat)
  | stop (time : Nat) (targets : List (Text × Env))
  | rm (targets : List (Text × Env))
  /-- The refresh that `ps`, `inspect` and `stats` do. -/
  | refresh (name : Text) (env : Env)
  | exit (pid : Nat)
  | collect (pid : Nat)
  | fork (parent pid : Nat)
  | spawn (pid : Nat)
  | edit (obj : Nat → Path → Option Obj)

/-- A process ends and stays a zombie. -/
def endProcess (pid : Nat) (h : Host) : Host :=
  { h with procs := h.procs.map fun p => if p.pid = pid then { p with zombie := true } else p }

/-- A new process gets a pid that is not in use and the next start time. -/
def addProcess (pid : Nat) (cgroup : Option Text) (h : Host) : Host :=
  if (readProcessStartTime pid h).isSome then h
  else { h with procs := h.procs ++ [⟨pid, h.clock, cgroup, false⟩], clock := h.clock + 1 }

def World.step (w : World) : Command → World
  | .run env args =>
    let r := dockerRun env args w.host
    ⟨r.1, if r.2 = 0 ∧ args.detach = false then
      w.foreground ++ [⟨args.name, env.pid, w.host.clock⟩] else w.foreground⟩
  | .reap env k =>
    match w.foreground[k]? with
    | none => w
    | some e =>
      if w.host.procs.any (fun p => decide (p.pid = e.pid ∧ p.start = e.start) && p.zombie) then
        ⟨reapForeground env e.name e.pid e.start w.host, w.foreground.eraseIdx k⟩
      else w
  | .stop time targets => { w with host := (dockerStop time targets w.host).1 }
  | .rm targets => { w with host := (dockerRm targets w.host).1 }
  | .refresh name env =>
    match w.host.info name with
    | none => w
    | some info => { w with host := (refreshContainerStatusIfNeeded env name info w.host).1 }
  | .exit pid => { w with host := endProcess pid w.host }
  -- the parent reaps a zombie; a foreground `docker run` does that in `reap`
  | .collect pid =>
    if w.foreground.any (fun e => decide (e.pid = pid)) then w
    else { w with host := { w.host with
      procs := w.host.procs.filter fun p => !(decide (p.pid = pid) && p.zombie) } }
  -- a child is born into the cgroup of its parent
  | .fork parent pid =>
    match w.host.procs.find? (fun p => decide (p.pid = parent) && !p.zombie) with
    | none => w
    | some p => { w with host := addProcess pid p.cgroup w.host }
  | .spawn pid => { w with host := addProcess pid none w.host }
  | .edit obj => { w with host := { w.host with space := { w.host.space with obj := obj } } }

/-- What a command can do: a container command, a change of the trees, or a change of the processes and
perhaps of the status of one record. -/
theorem World.step_cases (w : World) (c : Command) :
    (∃ env args, c = .run env args) ∨ (∃ time targets, c = .stop time targets) ∨
      (∃ targets, c = .rm targets) ∨ (∃ obj, c = .edit obj) ∨
      ∃ procs clock name, OnlyStatus name { w.host with procs := procs, clock := clock } (w.step c).host := by
  have hsame : ∀ procs clock, ∃ procs' clock' name,
      OnlyStatus name { w.host with procs := procs', clock := clock' }
        { w.host with procs := procs, clock := clock } :=
    fun procs clock => ⟨procs, clock, [], OnlyStatus.refl [] _⟩
  have hadd : ∀ pid cgroup, ∃ procs clock name,
      OnlyStatus name { w.host with procs := procs, clock := clock } (addProcess pid cgroup w.host) := by
    intro pid cgroup
    unfold addProcess
    split
    · exact hsame w.host.procs w.host.clock
    · exact hsame _ _
  cases c with
  | run env args => exact Or.inl ⟨env, args, rfl⟩
  | stop time targets => exact Or.inr (Or.inl ⟨time, targets, rfl⟩)
  | rm targets => exact Or.inr (Or.inr (Or.inl ⟨targets, rfl⟩))
  | edit obj => exact Or.inr (Or.inr (Or.inr (Or.inl ⟨obj, rfl⟩)))
  | reap env k =>
    right; right; right; right
    simp only [World.step]
    split
    · exact hsame w.host.procs w.host.clock
    · rename_i e _
      split
      · exact ⟨_, _, e.name, updateContainerStatus_status env e.name (by decide) _⟩
      · exact hsame w.host.procs w.host.clock
  | refresh name env =>
    right; right; right; right
    simp only [World.step]
    split
    · exact hsame w.host.procs w.host.clock
    · rename_i i hi
      exact ⟨w.host.procs, w.host.clock, name, refresh_status env hi⟩
  | exit pid => exact Or.inr (Or.inr (Or.inr (Or.inr (hsame _ w.host.clock))))
  | collect pid =>
    right; right; right; right
    simp only [World.step]
    split
    · exact hsame w.host.procs w.host.clock
    · exact hsame _ w.host.clock
  | fork parent pid =>
    right; right; right; right
    simp only [World.step]
    split
    · exact hsame w.host.procs w.host.clock
    · exact hadd pid _
  | spawn pid => exact Or.inr (Or.inr (Or.inr (Or.inr (hadd pid none))))

abbrev World.run (w : World) (cs : List Command) : World := Runs.run World.step w cs

/-- Before the first command: no container, and nothing mounted where containers will live.  The
rest of the host is arbitrary. -/
structure World.Booted (w : World) : Prop where
  noWaiting : w.foreground = []
  noInfo : ∀ name, w.host.info name = none
  noWorkspace : ∀ name, w.host.workspace name = false
  noMounts : ∀ name, mountsBelow name w.host.space.table = []
  noCalls : w.host.log = []
  pids : (w.host.procs.map (·.pid)).Nodup
  starts : ∀ p ∈ w.host.procs, p.start < w.host.clock
  outside : ∀ p ∈ w.host.procs, p.cgroup = none

/-- A host with the default network and one process. -/
def Host.bare : Host :=
  { space := ⟨fun _ _ => none, [], 1⟩
    workspace := fun _ => false
    cgroups := []
    info := fun _ => none
    networks := [⟨TINYDOCKER_DEFAULT_NETWORK_NAME, "bridge".toList, "172.11.11.0/24".toList, []⟩]
    nat := fun _ => []
    links := []
    nextIndex := 1
    procs := [⟨1, 0, none, false⟩]
    clock := 1
    log := [] }

def World.bare : World := ⟨Host.bare, []⟩

theorem World.bare_booted : World.bare.Booted :=
  ⟨rfl, fun _ => rfl, fun _ => rfl, fun _ => rfl, rfl, by decide, by decide, by decide⟩

theorem bare_storeOk : StoreOk Host.bare.networks := by
  have hrec : ∀ r ∈ Host.bare.networks, RecordOk r ∧ '\n' ∉ r.cidr ∧ '\r' ∉ r.cidr := by
    intro r hr
    rw [List.mem_singleton.1 hr]
    exact ⟨⟨by decide, by decide, by decide, by decide, by decide, by decide⟩, by decide, by decide⟩
  exact ⟨by decide, by decide, fun r hr => (hrec r hr).1, fun r hr => (hrec r hr).2⟩

/-- `docker run --name NAME img /bin/sh`, with `-d` or in the foreground. -/
def shellArgs (name : Text) (detach : Bool) : RunArguments :=
  ⟨[], detach, -1, -1, "img".toList, name, ["/bin/sh".toList], []⟩

/-- Every command of the run meets the condition in the state it finds. -/
abbrev World.Meets (Ok : World → Command → Prop) (w : World) (cs : List Command) : Prop :=
  Runs.Meets World.step Ok w cs

end TinyDocker
