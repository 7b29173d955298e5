import TinyDocker.Core.Safety
import TinyDocker.Lib.MountSpace

/-!
# Directories below a root (`core/fs.c`, `core/safety.c`)

`tdJoinRootfsPath` joins the root of a container and a path inside it by text;
`tdEnsureDirectoryBeneath` creates the directories of such a path, one after the other, and follows no
symbolic link below the root.

Principal results:

* `volume_target_contained_iff` — a joined path lies strictly below the root exactly when the container
  path has a byte that is no slash;
* `ensure_directory_beneath` — whatever fails, only directories of the chain are added; after success the
  whole chain is real and the joined path resolves to its end.
-/

set_option autoImplicit false

namespace TinyDocker

open CText MountSpace

/-! ## The joined path -/

/-- What `td_join_rootfs_path` has checked, and what it returns. -/
theorem tdJoinRootfsPath_ok {rootfs containerPath output : Text} {size : Nat}
    (h : tdJoinRootfsPath rootfs containerPath size = .ok output) :
    rootfs.head? = some '/' ∧ containerPath.head? = some '/' ∧ PlainNames (components containerPath) ∧
      output = rootfs ++ (if rootfs.getLast? = some '/' then containerPath.drop 1 else containerPath) := by
  unfold tdJoinRootfsPath at h
  split at h
  · cases h
  rename_i hroot
  split at h
  · cases h
  rename_i hpath
  split at h
  · cases h
  split at h
  · cases h
  rename_i hsafe
  generalize houtput :
    rootfs ++ (if rootfs.getLast? = some '/' then containerPath.drop 1 else containerPath) = joined at h ⊢
  simp only at h
  split at h
  · cases h
  cases h
  simp only [not_or, not_not] at hroot hpath
  simp only [hasUnsafePathComponent, List.any_eq_true, Bool.or_eq_true, beq_iff_eq, not_exists, not_and,
    not_or] at hsafe
  exact ⟨hroot.1, hpath, fun c hc => hsafe c hc, rfl⟩

theorem components_cons_slash (path : Text) : components ('/' :: path) = components path :=
  tokens_cons_of_delim (d := (· == '/')) rfl path

theorem components_append_slash (front back : Text) :
    components (front ++ '/' :: back) = components front ++ components back :=
  tokens_append (d := (· == '/')) rfl back front

/-- **The components of the joined path** are those of the root, then those of the container path. -/
theorem components_join {rootfs containerPath output : Text} {size : Nat}
    (h : tdJoinRootfsPath rootfs containerPath size = .ok output) :
    components output = components rootfs ++ components containerPath := by
  obtain ⟨-, hpath, -, rfl⟩ := tdJoinRootfsPath_ok h
  cases containerPath with
  | nil => cases hpath
  | cons c rest =>
    cases hpath
    rw [components_cons_slash]
    split
    · -- the slash at the end of the root is the one between the two
      rename_i hlast
      obtain ⟨front, rfl⟩ : ∃ front, rootfs = front ++ ['/'] := by
        rcases List.eq_nil_or_concat rootfs with rfl | ⟨front, last, rfl⟩
        · cases hlast
        · rw [List.concat_eq_append, List.getLast?_append, List.getLast?_singleton] at hlast
          cases hlast
          exact ⟨front, List.concat_eq_append⟩
      have hfront : components (front ++ ['/']) = components front := by
        rw [components_append_slash]
        exact List.append_nil _
      rw [hfront, List.drop_one, List.tail_cons, List.append_assoc, List.singleton_append,
        components_append_slash]
    · exact components_append_slash rootfs rest

/-- The target has the components of the root and then those of the container path; none of these is
special, and there is at least one. -/
structure Contained (rootfs containerPath output : Text) : Prop where
  split : components output = components rootfs ++ components containerPath
  plain : PlainNames (components containerPath)
  below : components containerPath ≠ []

/-- A path has a component exactly when it has a byte that is no slash. -/
theorem components_ne_nil {path : Text} : components path ≠ [] ↔ ∃ c ∈ path, c ≠ '/' := by
  unfold components
  rw [Ne, tokens_eq_nil]
  simp

/-- **Where an accepted container path leads.**  The special case of `td_join_rootfs_path` for the root
compares with `/` only; a path of two slashes or more is accepted and is the root of the container too,
and a volume with such a path is mounted over it. -/
theorem volume_target_contained_iff (rootfs containerPath output : Text) (size : Nat)
    (h : tdJoinRootfsPath rootfs containerPath size = .ok output) :
    (Contained rootfs containerPath output ↔ ∃ c ∈ containerPath, c ≠ '/') ∧
    ∀ text hostSize containerSize host ro,
      tdParseVolumeSpec text hostSize containerSize = .ok (host, containerPath, ro) →
        (components output ≠ components rootfs ↔ ∃ c ∈ containerPath, c ≠ '/') := by
  have hsplit := components_join h
  refine ⟨⟨fun hc => components_ne_nil.1 hc.below, fun hc => ?_⟩, fun _ _ _ _ _ _ => ?_⟩
  · exact ⟨hsplit, (tdJoinRootfsPath_ok h).2.2.1, components_ne_nil.2 hc⟩
  · rw [hsplit, ← components_ne_nil, Ne, List.append_right_eq_self]

theorem data_target_contained :
    tdJoinRootfsPath "/run/root/".toList "//data/".toList 1024 = .ok "/run/root//data/".toList ∧
      Contained "/run/root/".toList "//data/".toList "/run/root//data/".toList := by
  have hjoin : tdJoinRootfsPath "/run/root/".toList "//data/".toList 1024 = .ok "/run/root//data/".toList := by
    decide +kernel
  exact ⟨hjoin, (volume_target_contained_iff _ _ _ _ hjoin).1.2 ⟨'d', by decide, by decide⟩⟩

/-- `-v /host://` is accepted and hides the root of the container. -/
theorem double_slash_covers_root :
    tdParseVolumeSpec "/host://".toList 4096 4096 = .ok ("/host".toList, "//".toList, 0) ∧
      tdJoinRootfsPath "/run/root".toList "//".toList 1024 = .ok "/run/root//".toList ∧
      components "/run/root//".toList = components "/run/root".toList ∧
      ¬ Contained "/run/root".toList "//".toList "/run/root//".toList := by
  refine ⟨by decide +kernel, by decide +kernel, by decide +kernel, fun h => ?_⟩
  exact h.below (by decide +kernel)

/-! ## Creating the directories -/

/-- Calls that may fail for a reason of their own; `k` counts the components. -/
structure FsFaults where
  openRoot : Bool
  strdup : Bool
  mkdirat : Nat → Bool
  openat : Nat → Bool

/-- `open(path, O_DIRECTORY | O_NOFOLLOW)`: links on the way are followed, the last component only
before a trailing slash. -/
def openDirectory (sp : Space) (path : Text) : Except Errno Path :=
  let parts := components path
  let target :=
    if path.getLast? = some '/' then sp.resolve [] parts
    else match sp.resolve [] parts.dropLast with
      | .error e => .error e
      | .ok parent =>
        if sp.look parent = some .file then .error .ENOTDIR
        else walk sp 0 parent (parts.drop (parts.length - 1))
  match target with
  | .error e => .error e
  -- the root of the tree need not be listed in it
  | .ok dir =>
    if sp.look dir = some .dir ∨ (dir = [] ∧ sp.look dir = none) then .ok dir else .error .ENOTDIR

/-- `td_ensure_directory_beneath`: the output path, or `none` for -1. -/
def tdEnsureDirectoryBeneath (fault : FsFaults) (sp : Space) (rootfs containerPath : Text) (outputSize : Nat) :
    Space × Option Text :=
  match tdJoinRootfsPath rootfs containerPath outputSize with
  | .error _ => (sp, none)
  | .ok output =>
    if fault.openRoot then (sp, none)
    else match openDirectory sp rootfs with
      | .error _ => (sp, none)
      | .ok directory =>
        if fault.strdup then (sp, none)
        else
          let r := ensureDirs fault.mkdirat fault.openat 0 sp directory (components (containerPath.drop 1))
          (r.1, if r.2 then some output else none)

/-- A directory that could be opened is what its path resolves to, links followed. -/
theorem openDirectory_ok {sp : Space} {path : Text} {dir : Path} (h : openDirectory sp path = .ok dir) :
    sp.resolve [] (components path) = .ok dir ∧ (sp.look dir = some .dir ∨ (dir = [] ∧ sp.look dir = none)) := by
  unfold openDirectory at h
  simp only at h
  split at h
  · cases h
  rename_i target htarget
  split at h
  · rename_i hdir
    cases h
    refine ⟨?_, hdir⟩
    split at htarget
    · exact htarget
    split at htarget
    · cases htarget
    rename_i parent hparent
    have hparts : (components path).dropLast ++ (components path).drop ((components path).length - 1) =
        components path := by
      rw [List.dropLast_eq_take]
      exact List.take_append_drop _ _
    rw [← hparts]
    split at htarget
    · cases htarget
    · rename_i hfile
      exact walk_append htarget hfile hparent
  · cases h

/-- **Directories beneath the root.**  The root is a real directory; anything may be below it.  Whatever
fails, the tree gains directories along the components of the container path only, and nothing else
changes.  After success every component is a real directory, reached without following a link, and the
output path resolves to the last one. -/
theorem ensure_directory_beneath (fault : FsFaults) (sp : Space) (rootfs containerPath : Text) (size : Nat)
    (root : Path) (hroot : openDirectory sp rootfs = .ok root) :
    ∃ made, made <+: components containerPath ∧
      Adds sp (tdEnsureDirectoryBeneath fault sp rootfs containerPath size).1 root made ∧
      ∀ output, (tdEnsureDirectoryBeneath fault sp rootfs containerPath size).2 = some output →
        RealDirs (tdEnsureDirectoryBeneath fault sp rootfs containerPath size).1 root
            (components containerPath) ∧
          (tdEnsureDirectoryBeneath fault sp rootfs containerPath size).1.resolve [] (components output) =
            .ok (root ++ components containerPath) := by
  have hnothing : ∃ made, made <+: components containerPath ∧ Adds sp sp root made ∧
      ∀ output, (none : Option Text) = some output →
        RealDirs sp root (components containerPath) ∧
          sp.resolve [] (components output) = .ok (root ++ components containerPath) :=
    ⟨[], List.nil_prefix, Adds.nothing sp root, fun _ h => by cases h⟩
  unfold tdEnsureDirectoryBeneath
  split
  · exact hnothing
  rename_i joined hjoin
  split
  · exact hnothing
  rw [hroot]
  simp only
  split
  · exact hnothing
  obtain ⟨-, habs, hplain, -⟩ := tdJoinRootfsPath_ok hjoin
  have hcopy : components (containerPath.drop 1) = components containerPath := by
    cases containerPath with
    | nil => cases habs
    | cons c rest =>
      cases habs
      exact (components_cons_slash rest).symm
  rw [hcopy]
  obtain ⟨made, hmade, hadds, hall⟩ := @ensureDirs_adds fault.mkdirat fault.openat
    (components containerPath) root 0 sp
  obtain ⟨hgrow, hreal⟩ := @ensureDirs_ok fault.mkdirat fault.openat (components containerPath) root 0 sp
  obtain ⟨hresolve, hdir⟩ := openDirectory_ok hroot
  refine ⟨made, hmade, hadds, fun output hout => ?_⟩
  simp only at hout
  split at hout
  · rename_i hok
    cases hout
    refine ⟨hreal hok, ?_⟩
    rw [components_join hjoin]
    -- the root resolves as before, and from there on no link is met
    refine walk_append (walk_realDirs hplain (hreal hok)) ?_ (hgrow.walk hresolve)
    rcases hdir with hdir | ⟨-, hdir⟩
    · rw [hgrow.look_some hdir]
      exact fun h => by cases h
    · rcases hgrow.look_none hdir with hd | hd <;> rw [hd] <;> exact fun h => by cases h
  · cases hout

/-- A root with a link that leads out of it. -/
def linkTree : Space :=
  { obj := fun _ p =>
      if p = ["srv".toList] ∨ p = ["srv".toList, "root".toList] then some .dir
      else if p = ["srv".toList, "root".toList, "up".toList] then some (.link "/srv".toList)
      else none
    table := []
    nextFs := 1 }

def FsFaults.none : FsFaults := ⟨false, false, fun _ => false, fun _ => false⟩

theorem directories_made_beneath :
    (tdEnsureDirectoryBeneath .none linkTree "/srv/root".toList "/var//log/".toList 1024).2 =
        some "/srv/root/var//log/".toList ∧
      (tdEnsureDirectoryBeneath .none linkTree "/srv/root".toList "/var//log/".toList 1024).1.resolve []
          (components "/srv/root/var//log/".toList) =
        .ok (["srv".toList, "root".toList] ++ components "/var//log/".toList) := by
  have hroot : openDirectory linkTree "/srv/root".toList = .ok ["srv".toList, "root".toList] := by
    decide +kernel
  obtain ⟨_, _, _, hdone⟩ := ensure_directory_beneath .none linkTree _ "/var//log/".toList 1024 _ hroot
  have hout : (tdEnsureDirectoryBeneath .none linkTree "/srv/root".toList "/var//log/".toList 1024).2 =
      some "/srv/root/var//log/".toList := by decide +kernel
  exact ⟨hout, (hdone _ hout).2⟩

example : (tdEnsureDirectoryBeneath .none linkTree "/srv/root".toList "/up/log".toList 1024).2 = none := by
  decide +kernel

end TinyDocker
