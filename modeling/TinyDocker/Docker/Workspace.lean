import TinyDocker.Docker.Container
import TinyDocker.Docker.NewRoot
import TinyDocker.Docker.RuntimePaths
import TinyDocker.Util.MakePath

/-!
# The workspace of a container (`init_container_workerspace` in `docker/workspace.c`)

The directory of the image, the upper and the work directory and the mountpoint of the container, and the
overlay that is mounted there.  The branch for archives is `Docker/ImageCache`; here it is the directory that
it returns.  `mount` takes the three directories as one text of options, which the kernel takes apart.

Principal results: `workspace_refines` — the step of the system model is this one, up to the directories made;
`container_sees_image` — after the start an object of the image stands where the image has it.
-/

set_option autoImplicit false

namespace TinyDocker.Workspace

open CText MountSpace

/-- Calls that may fail for a reason of their own: `calloc`, the `mkdir`s of the three paths, `malloc`. -/
structure WorkspaceFaults where
  alloc : Bool
  upper : Nat → Bool
  mountpoint : Nat → Bool
  work : Nat → Bool
  data : Bool

def WorkspaceFaults.none : WorkspaceFaults :=
  ⟨false, fun _ => false, fun _ => false, fun _ => false, false⟩

/-- `is_folder`. -/
def isFolder (cwd : Path) (sp : Space) (path : Text) : Bool :=
  match sp.resolve (startOf cwd path) (components path) with
  | .error _ => false
  | .ok p => decide (path ≠ [] ∧ sp.look p = some .dir)

/-- `lowerdir=..,upperdir=..,workdir=..`. -/
def overlayData (lower upper work : Text) : Text :=
  "lowerdir=".toList ++ (lower ++ ',' :: ("upperdir=".toList ++ (upper ++ ',' :: ("workdir=".toList ++ work))))

section Model

variable (f : WorkspaceFaults) (archive : Option Text) (overlay : Space → Text → Text → Option Space) (cwd : Path)

def createReadonlyLayer (sp : Space) (image : Text) : Option Text :=
  if isFolder cwd sp image then
    match realpath sp cwd image with
    | .error _ => none
    | .ok p => some (pathText p)
  else archive

def createReadwriteLayer (sp : Space) (name : Text) : Space × Option Text :=
  match workspacePath name "upperdir".toList with
  | none => (sp, none)
  | some upper =>
    let made := makePath cwd f.upper sp upper
    (made.1, if made.2 = 0 then some upper else none)

/-- The work directory, then the mount of the overlay with the data at the mountpoint. -/
def createWorkspaceMountPoint (sp : Space) (name lower upper mountpoint : Text) : Space × Bool :=
  match workspacePath name "workdir".toList with
  | none => (sp, false)
  | some work =>
    let made := makePath cwd f.work sp work
    if made.2 ≠ 0 ∨ f.data then (made.1, false)
    else match overlay made.1 (overlayData lower upper work) mountpoint with
      | none => (made.1, false)
      | some sp' => (sp', true)

def initContainerWorkerspace (sp : Space) (name image : Text) : Space × Bool :=
  if f.alloc then (sp, false)
  else match createReadonlyLayer archive cwd sp image with
    | none => (sp, false)
    | some lower =>
      match createReadwriteLayer f cwd sp name with
      | (sp, none) => (sp, false)
      | (sp, some upper) =>
        match workspacePath name "mountpoint".toList with
        | none => (sp, false)
        | some mountpoint =>
          let made := makePath cwd f.mountpoint sp mountpoint
          if made.2 ≠ 0 then (made.1, false)
          else createWorkspaceMountPoint f overlay cwd made.1 name lower upper mountpoint

end Model

/-- A text that stands for itself as the value of a mount option. -/
def Clean (path : Text) : Prop := ',' ∉ path ∧ ':' ∉ path ∧ '\x5c' ∉ path

/-- No object stands below the directory in its file system. -/
def EmptyBelow (sp : Space) (dir : Path) : Prop :=
  ∀ q, q ≠ [] → sp.obj (sp.loc dir).1 ((sp.loc dir).2 ++ q) = none

/-- What a successful mount of an overlay does with values that stand for themselves, if the upper directory is
empty: the lower one is shown at the mountpoint.  Of other upper directories nothing is said: the kernel merges
what is in them. -/
def Mounts (overlay : Space → Text → Text → Option Space) : Prop :=
  ∀ sp lower upper work mountpoint sp' l u p, Clean lower → Clean upper → Clean work →
    sp.resolve [] (components lower) = .ok l → sp.resolve [] (components upper) = .ok u → EmptyBelow sp u →
    sp.resolve [] (components mountpoint) = .ok p →
    overlay sp (overlayData lower upper work) mountpoint = some sp' → sp' = sp.overlay l p

/-! ## The paths of the workspace -/

section

variable {name : Text}

/-- The directory of a layer. -/
def layerDir (name layer : Text) : Path := containerDir name ++ [layer]

theorem plain_name (hname : tdValidateName name 127 = .ok ()) : name ≠ ['.'] ∧ name ≠ ['.', '.'] := by
  refine ⟨?_, ?_⟩
  · rintro rfl
    revert hname
    decide
  · rintro rfl
    revert hname
    decide

theorem word_name (hname : tdValidateName name 127 = .ok ()) : Word name := by
  obtain ⟨hne, -, hchars⟩ := tdValidateName_ok hname
  exact ⟨hne, not_mem_of_nameChar hchars (by decide)⟩

theorem layer_words (hname : tdValidateName name 127 = .ok ()) {layer : Text} (hword : Word layer)
    (hplain : layer ≠ ['.'] ∧ layer ≠ ['.', '.']) :
    (∀ c ∈ layerDir name layer, Word c) ∧ PlainNames (layerDir name layer) := by
  have hbase : ∀ c ∈ [ "home".toList, "xanarry".toList, "tinydocker_runtime".toList, "containers".toList],
      Word c ∧ c ≠ ['.'] ∧ c ≠ ['.', '.'] := by
    intro c hc
    simp only [List.mem_cons, List.not_mem_nil, or_false] at hc
    rcases hc with rfl | rfl | rfl | rfl <;> exact ⟨⟨by decide, by decide⟩, by decide, by decide⟩
  have hall : ∀ c ∈ layerDir name layer, Word c ∧ c ≠ ['.'] ∧ c ≠ ['.', '.'] := by
    intro c hc
    have hsplit : layerDir name layer =
        [ "home".toList, "xanarry".toList, "tinydocker_runtime".toList, "containers".toList] ++ [name, layer] := rfl
    rw [hsplit] at hc
    rcases List.mem_append.1 hc with hc | hc
    · exact hbase c hc
    simp only [List.mem_cons, List.not_mem_nil, or_false] at hc
    rcases hc with rfl | rfl
    · exact ⟨word_name hname, plain_name hname⟩
    · exact ⟨hword, hplain⟩
  exact ⟨fun c hc => (hall c hc).1, fun c hc => (hall c hc).2⟩

theorem layerDir_text (name layer : Text) : pathText (layerDir name layer) =
    TINYDOCKER_RUNTIME_DIR ++ '/' :: ("containers".toList ++ '/' :: name) ++ '/' :: layer := by
  have hbase : TINYDOCKER_RUNTIME_DIR = '/' :: ("home".toList ++ '/' :: ("xanarry".toList ++
      '/' :: "tinydocker_runtime".toList)) := by decide
  have hne : layerDir name layer ≠ [] := List.cons_ne_nil _ _
  rw [hbase, pathText, if_neg hne]
  simp only [layerDir, containerDir, List.cons_append, List.nil_append, List.flatMap_cons, List.flatMap_nil,
    List.append_nil, List.append_assoc]

theorem workspacePath_eq (hname : tdValidateName name 127 = .ok ()) {layer : Text} (hlen : layer.length ≤ 10) :
    workspacePath name layer = some (pathText (layerDir name layer)) ∧
      (pathText (layerDir name layer)).length < 256 := by
  have hbound := (tdValidateName_ok hname).2.1
  have hbase : TINYDOCKER_RUNTIME_DIR.length = 32 := by decide
  have hwords : "containers".toList.length = 10 := by decide
  rw [layerDir_text]
  refine ⟨workspacePath_text hname hlen, ?_⟩
  simp only [List.length_append, List.length_cons, hbase, hwords]
  omega

end

/-- The directories that the workspace has in the container's own. -/
def layers : List Text := [ "upperdir".toList, "mountpoint".toList, "workdir".toList]

def upperDir (name : Text) : Path := layerDir name "upperdir".toList

/-- The upper directory is empty or missing, and no directory on the way to the layers is one of its inside, shown
there by a mount. -/
structure UnusedUpper (sp : Space) (name : Text) : Prop where
  empty : EmptyBelow sp (upperDir name)
  outside : ∀ layer ∈ layers, ∀ front, front <+: layerDir name layer → ∀ q, q ≠ [] →
    sp.loc front ≠ ((sp.loc (upperDir name)).1, (sp.loc (upperDir name)).2 ++ q)

/-- Directories have been made on the way to the layers. -/
structure Prepares (name : Text) (sp made : Space) : Prop where
  grows : Grows sp made
  places : ∀ fs q, made.obj fs q ≠ sp.obj fs q →
    ∃ layer ∈ layers, ∃ front, front <+: layerDir name layer ∧ (fs, q) = sp.loc front

section

variable {sp sp₁ sp₂ : Space} {name : Text} {cwd : Path}

theorem Prepares.refl (name : Text) (sp : Space) : Prepares name sp sp :=
  ⟨Grows.refl sp, fun _ _ h => absurd rfl h⟩

theorem Prepares.trans (h : Prepares name sp sp₁) (h' : Prepares name sp₁ sp₂) : Prepares name sp sp₂ := by
  refine ⟨h.grows.trans h'.grows, fun fs q hq => ?_⟩
  by_cases hsame : sp₂.obj fs q = sp₁.obj fs q
  · exact h.places fs q (hsame ▸ hq)
  · obtain ⟨layer, hlayer, front, hpre, hloc⟩ := h'.places fs q hsame
    exact ⟨layer, hlayer, front, hpre, hloc.trans (h.grows.loc front)⟩

/-- The upper directory stays empty. -/
theorem UnusedUpper.prepared (hu : UnusedUpper sp name) (h : Prepares name sp sp₁) :
    EmptyBelow sp₁ (upperDir name) := by
  intro q hq
  rw [h.grows.loc]
  by_contra hne
  rw [← hu.empty q hq] at hne
  obtain ⟨layer, hlayer, front, hpre, hloc⟩ := h.places _ _ hne
  exact hu.outside layer hlayer front hpre q hq hloc.symm

/-- One layer is made, or what is there of it stays. -/
theorem makePath_layer (hname : tdValidateName name 127 = .ok ()) {layer : Text} (hlayer : layer ∈ layers)
    (hopen : OpenChain sp [] (layerDir name layer)) (fails : Nat → Bool) :
    Prepares name sp (makePath cwd fails sp (pathText (layerDir name layer))).1 ∧
      ((makePath cwd fails sp (pathText (layerDir name layer))).2 = 0 →
        RealDirs (makePath cwd fails sp (pathText (layerDir name layer))).1 [] (layerDir name layer)) := by
  have hword : Word layer ∧ layer ≠ ['.'] ∧ layer ≠ ['.', '.'] := by
    simp only [layers, List.mem_cons, List.not_mem_nil, or_false] at hlayer
    rcases hlayer with rfl | rfl | rfl <;> exact ⟨⟨by decide, by decide⟩, by decide, by decide⟩
  obtain ⟨hwords, hplain⟩ := layer_words hname hword.1 hword.2
  have hne : layerDir name layer ≠ [] := List.cons_ne_nil _ _
  exact ⟨⟨(makePath_makes cwd fails sp _).1.grows, fun fs q hq =>
    ⟨layer, hlayer, makePath_places hne hwords hplain hopen hq⟩⟩, makePath_plain hne hwords hplain hopen⟩

theorem layer_path (hname : tdValidateName name 127 = .ok ()) {layer : Text} (hlayer : layer ∈ layers) :
    workspacePath name layer = some (pathText (layerDir name layer)) := by
  refine (workspacePath_eq hname ?_).1
  simp only [layers, List.mem_cons, List.not_mem_nil, or_false] at hlayer
  rcases hlayer with rfl | rfl | rfl <;> decide

/-- What the call does: directories are made; success means that the overlay is mounted on them. -/
theorem workspace_cases (f : WorkspaceFaults) (archive : Option Text)
    (overlay : Space → Text → Text → Option Space) (image : Text) (hname : tdValidateName name 127 = .ok ())
    (hopen : ∀ layer ∈ layers, OpenChain sp [] (layerDir name layer)) :
    ∃ made, Prepares name sp made ∧
      (initContainerWorkerspace f archive overlay cwd sp name image = (made, false) ∨
        ∃ sp' lower, initContainerWorkerspace f archive overlay cwd sp name image = (sp', true) ∧
          createReadonlyLayer archive cwd sp image = some lower ∧ RealDirs made [] (upperDir name) ∧
          RealDirs made [] (mountpointDir name) ∧
          overlay made (overlayData lower (pathText (upperDir name))
            (pathText (layerDir name "workdir".toList))) (mountpointText name) = some sp') := by
  have hpoint : pathText (layerDir name "mountpoint".toList) = mountpointText name :=
    (layerDir_text name _).trans (mountpointText_eq name)
  unfold initContainerWorkerspace createReadwriteLayer createWorkspaceMountPoint
  rw [layer_path hname (show "upperdir".toList ∈ layers by decide),
    layer_path hname (show "mountpoint".toList ∈ layers by decide),
    layer_path hname (show "workdir".toList ∈ layers by decide)]
  split
  · exact ⟨sp, Prepares.refl name sp, Or.inl rfl⟩
  split
  · exact ⟨sp, Prepares.refl name sp, Or.inl rfl⟩
  rename_i lower hlower
  simp only
  obtain ⟨hmade₁, hupper⟩ := @makePath_layer sp name cwd hname "upperdir".toList (by decide)
    (hopen _ (by decide)) f.upper
  generalize makePath cwd f.upper sp (pathText (layerDir name "upperdir".toList)) = made₁ at hmade₁ hupper ⊢
  split
  · rename_i sp₁ hstop
    obtain ⟨rfl, -⟩ := Prod.mk.inj hstop
    exact ⟨made₁.1, hmade₁, Or.inl rfl⟩
  rename_i sp₁ upper hgoes
  obtain ⟨rfl, htext⟩ := Prod.mk.inj hgoes
  obtain ⟨hmade₂, hreal⟩ := @makePath_layer made₁.1 name cwd hname "mountpoint".toList (by decide)
    ((hopen _ (by decide)).grows hmade₁.grows) f.mountpoint
  generalize makePath cwd f.mountpoint made₁.1 (pathText (layerDir name "mountpoint".toList)) = made₂
    at hmade₂ hreal ⊢
  split
  · exact ⟨made₂.1, hmade₁.trans hmade₂, Or.inl rfl⟩
  rename_i hzero
  have hmade := hmade₁.trans hmade₂
  obtain ⟨hmade₃, -⟩ := @makePath_layer made₂.1 name cwd hname "workdir".toList (by decide)
    ((hopen _ (by decide)).grows hmade.grows) f.work
  generalize makePath cwd f.work made₂.1 (pathText (layerDir name "workdir".toList)) = made₃ at hmade₃ ⊢
  split
  · exact ⟨made₃.1, hmade.trans hmade₃, Or.inl rfl⟩
  split
  · exact ⟨made₃.1, hmade.trans hmade₃, Or.inl rfl⟩
  · rename_i sp' hmount
    split at htext
    · rename_i hdone
      cases htext
      refine ⟨made₃.1, hmade.trans hmade₃, Or.inr ⟨sp', lower, rfl, hlower, ?_, ?_, ?_⟩⟩
      · exact (hmade₂.trans hmade₃).grows.realDirs (hupper hdone)
      · exact hmade₃.grows.realDirs (hreal (by simpa using hzero))
      · rw [← hpoint]
        exact hmount
    · cases htext

end

/-! ## The overlay -/

theorem clean_layer {name : Text} (hname : tdValidateName name 127 = .ok ()) {layer : Text}
    (hlayer : layer ∈ layers) : Clean (pathText (layerDir name layer)) := by
  obtain ⟨-, -, hchars⟩ := tdValidateName_ok hname
  have hconst : ∀ c ∈ [',', ':', '\x5c'], c ∉ TINYDOCKER_RUNTIME_DIR ∧ c ∉ "containers".toList ∧ c ∉ layer ∧
      c ≠ '/' ∧ c ∉ name := by
    intro c hc
    refine ⟨?_, ?_, ?_, ?_, not_mem_of_nameChar hchars ?_⟩
    · simp only [List.mem_cons, List.not_mem_nil, or_false] at hc
      rcases hc with rfl | rfl | rfl <;> decide
    · simp only [List.mem_cons, List.not_mem_nil, or_false] at hc
      rcases hc with rfl | rfl | rfl <;> decide
    · simp only [List.mem_cons, List.not_mem_nil, or_false, layers] at hc hlayer
      rcases hc with rfl | rfl | rfl <;> rcases hlayer with rfl | rfl | rfl <;> decide
    · simp only [List.mem_cons, List.not_mem_nil, or_false] at hc
      rcases hc with rfl | rfl | rfl <;> decide
    · simp only [List.mem_cons, List.not_mem_nil, or_false] at hc
      rcases hc with rfl | rfl | rfl <;> decide
  have hall : ∀ c ∈ [',', ':', '\x5c'], c ∉ pathText (layerDir name layer) := by
    intro c hc
    obtain ⟨hbase, hcontainers, hend, hslash, hn⟩ := hconst c hc
    rw [layerDir_text]
    simp only [List.mem_append, List.mem_cons, not_or]
    exact ⟨⟨hbase, hslash, hcontainers, hslash, hn⟩, hslash, hend⟩
  exact ⟨hall _ (by decide), hall _ (by decide), hall _ (by decide)⟩

section

variable {f : WorkspaceFaults} {archive : Option Text} {overlay : Space → Text → Text → Option Space}
  {cwd l : Path} {sp sp₁ : Space} {name image lower : Text}

/-- The lower directory of an image that is a directory: the text resolves to it. -/
theorem readonly_folder (hcwd : Canonical sp cwd) (hfolder : isFolder cwd sp image = true)
    (h : createReadonlyLayer archive cwd sp image = some lower) :
    ∃ l, lower = pathText l ∧ sp.look l = some .dir ∧ sp.resolve [] (components lower) = .ok l := by
  unfold createReadonlyLayer at h
  rw [if_pos hfolder] at h
  split at h
  · cases h
  rename_i l hreal
  cases h
  have hdir : sp.look l = some .dir := by
    have hresolve := hreal
    unfold isFolder startOf at hfolder
    unfold realpath at hresolve
    split at hresolve
    · cases hresolve
    split at hresolve
    · cases hresolve
    rename_i p hp
    rw [hp] at hfolder
    split at hresolve
    · cases hresolve
    split at hresolve
    · cases hresolve
    cases hresolve
    exact (of_decide_eq_true hfolder).2
  have hl := realpath_canonical hcwd hreal (by rw [hdir]; decide)
  refine ⟨l, rfl, hdir, ?_⟩
  have hparts : components (pathText l) = l := tokens_pathText hl.words
  rw [hparts]
  exact walk_realDirs hl.plain hl.real

/-- After success the image is mounted over a chain of real directories. -/
theorem workspace_mounts (hname : tdValidateName name 127 = .ok ())
    (hopen : ∀ layer ∈ layers, OpenChain sp [] (layerDir name layer)) (hunused : UnusedUpper sp name)
    (hmounts : Mounts overlay) (hlower : createReadonlyLayer archive cwd sp image = some lower)
    (hclean : Clean lower) (hl : sp.resolve [] (components lower) = .ok l)
    (h : initContainerWorkerspace f archive overlay cwd sp name image = (sp₁, true)) :
    ∃ made, Grows sp made ∧ RealDirs made [] (mountpointDir name) ∧
      sp₁ = made.overlay l (mountpointDir name) := by
  obtain ⟨made, hmade, hcases⟩ := @workspace_cases sp name cwd f archive overlay image hname hopen
  rcases hcases with hfail | ⟨sp', lower', hsome, hlower', hupper, hreal, hmount⟩
  · rw [hfail] at h
    cases h
  · rw [hsome] at h
    cases h
    cases hlower'.symm.trans hlower
    have hparts := components_mountpointText hname
    have hplain : PlainNames (mountpointDir name) :=
      (@layer_words name hname "mountpoint".toList ⟨by decide, by decide⟩ ⟨by decide, by decide⟩).2
    obtain ⟨hwords, hplain'⟩ :=
      @layer_words name hname "upperdir".toList ⟨by decide, by decide⟩ ⟨by decide, by decide⟩
    have hup : made.resolve [] (components (pathText (upperDir name))) = .ok (upperDir name) := by
      rw [show components (pathText (upperDir name)) = upperDir name from tokens_pathText hwords]
      exact walk_realDirs hplain' hupper
    refine ⟨made, hmade.grows, hreal, hmounts made lower _ _ _ _ l _ _ hclean (clean_layer hname (by decide))
      (clean_layer hname (by decide)) (hmade.grows.walk hl) hup (hunused.prepared hmade) ?_ hmount⟩
    rw [hparts]
    exact walk_realDirs hplain hreal

/-- **The step of the system model.**  When it fails, only directories have been made; when it succeeds, its
space is the one of the stage of `docker run`, up to the directories made. -/
theorem workspace_refines (hname : tdValidateName name 127 = .ok ())
    (hopen : ∀ layer ∈ layers, OpenChain sp [] (layerDir name layer)) (hunused : UnusedUpper sp name)
    (hmounts : Mounts overlay)
    (hlower : createReadonlyLayer archive cwd sp image = some lower) (hclean : Clean lower)
    (hl : sp.resolve [] (components lower) = .ok l) (env : Env) (args : RunArguments) (st : RunState)
    (henv : env.readonlyDir = some l) (hnever : ∀ site, env.fails site = false) (hargs : args.name = name)
    (hspace : st.host.space = sp) :
    ((initContainerWorkerspace f archive overlay cwd sp name image).2 = false →
        Grows sp (initContainerWorkerspace f archive overlay cwd sp name image).1) ∧
      ((initContainerWorkerspace f archive overlay cwd sp name image).2 = true → ∃ st',
        TinyDocker.initContainerWorkerspace env args st = .ok st' ∧
          (initContainerWorkerspace f archive overlay cwd sp name image).1.table = st'.host.space.table ∧
          (initContainerWorkerspace f archive overlay cwd sp name image).1.nextFs = st'.host.space.nextFs ∧
          ∀ fs q o, st'.host.space.obj fs q = some o →
            (initContainerWorkerspace f archive overlay cwd sp name image).1.obj fs q = some o) := by
  constructor
  · intro hfail
    obtain ⟨made, hmade, hcases⟩ := @workspace_cases sp name cwd f archive overlay image hname hopen
    rcases hcases with h | ⟨sp', lower', h, -⟩
    · rw [h]
      exact hmade.grows
    · rw [h] at hfail
      cases hfail
  · intro hok
    obtain ⟨sp₁, hrun⟩ : ∃ sp₁, initContainerWorkerspace f archive overlay cwd sp name image = (sp₁, true) :=
      ⟨_, Prod.ext rfl hok⟩
    obtain ⟨made, hgrows, -, rfl⟩ := workspace_mounts hname hopen hunused hmounts hlower hclean hl hrun
    rw [hrun]
    subst hspace hargs
    obtain ⟨st', hstage, hspace⟩ : ∃ st', TinyDocker.initContainerWorkerspace env args st = .ok st' ∧
        st'.host.space = st.host.space.overlay l (mountpointDir args.name) := by
      unfold TinyDocker.initContainerWorkerspace
      simp only [hnever, henv, Bool.false_eq_true, or_self, ↓reduceIte]
      exact ⟨_, rfl, rfl⟩
    refine ⟨st', hstage, ?_⟩
    rw [hspace]
    refine ⟨?_, ?_, ?_⟩
    · show made.table ++ [⟨mountpointDir args.name, made.nextFs, []⟩] =
        st.host.space.table ++ [⟨mountpointDir args.name, st.host.space.nextFs, []⟩]
      rw [hgrows.table, hgrows.next]
    · show made.nextFs + 1 = st.host.space.nextFs + 1
      rw [hgrows.next]
    · intro fs q o ho
      simp only [Space.overlay] at ho ⊢
      rw [hgrows.next, hgrows.loc]
      split
      · rename_i hfs
        rw [if_pos hfs] at ho
        exact hgrows.keep _ _ _ ho
      · rename_i hfs
        rw [if_neg hfs] at ho
        exact hgrows.keep _ _ _ ho

/-! ## What the container sees -/

/-- The namespace of the child: the workspace with the volumes over it, in which nothing has been lost. -/
structure Volumed (sp₁ sp₂ : Space) (volumes : List Mount) : Prop where
  table : sp₂.table = sp₁.table ++ volumes
  next : sp₂.nextFs = sp₁.nextFs
  keep : ∀ fs q o, sp₁.obj fs q = some o → sp₂.obj fs q = some o

theorem overlay_loc_below (sp : Space) (lower target q : Path) :
    (sp.overlay lower target).loc (target ++ q) = (sp.nextFs, q) := by
  have hnew : sp.overlay lower target =
      sp.mountNew (fun q => sp.obj (sp.loc lower).1 ((sp.loc lower).2 ++ q)) target := rfl
  rw [hnew, mountNew_loc, if_pos (List.prefix_append _ _), List.drop_left]

/-- Where the mountpoint leads in that namespace, and what is below it apart from the volumes. -/
theorem volumed_mountpoint {made sp₂ : Space} {volumes : List Mount} (hname : tdValidateName name 127 = .ok ())
    (hnum : made.Numbered) (hreal : RealDirs made [] (mountpointDir name))
    (hvol : Volumed (made.overlay l (mountpointDir name)) sp₂ volumes) {q : Path}
    (hfree : ∀ m ∈ volumes, ¬ m.path <+: mountpointDir name ++ q) :
    realpath sp₂ [] (mountpointText name) = .ok (mountpointDir name) ∧
      sp₂.loc (mountpointDir name ++ q) = (made.nextFs, q) := by
  have htable : sp₂.table = made.table ++ (⟨mountpointDir name, made.nextFs, []⟩ :: volumes) := by
    rw [hvol.table, ← List.singleton_append, ← List.append_assoc]
    rfl
  have hkeeps : Keeps made sp₂ := (overlay_keeps made l (mountpointDir name)).trans
    ⟨Nat.le_of_eq hvol.next.symm, fun fs q _ hq => hvol.keep fs q .dir hq⟩
  have hreal₂ : RealDirs sp₂ [] (mountpointDir name) := by
    refine hkeeps.realDirs_over hnum htable (fun m hm p hp hpre => ?_) hreal
    rw [List.nil_append] at hp
    rcases List.mem_cons.1 hm with rfl | hm
    · exact hpre.eq_of_length_le hp.length_le
    · exact absurd ((hpre.trans hp).trans (List.prefix_append _ q)) (hfree m hm)
  have hparts := components_mountpointText hname
  have hplain : PlainNames (mountpointDir name) :=
    (@layer_words name hname "mountpoint".toList ⟨by decide, by decide⟩ ⟨by decide, by decide⟩).2
  have hresolve : sp₂.resolve [] (components (mountpointText name)) = .ok (mountpointDir name) := by
    rw [hparts]
    exact walk_realDirs hplain hreal₂
  have htext : pathText (mountpointDir name) = mountpointText name :=
    (layerDir_text name _).trans (mountpointText_eq name)
  have hlen : (pathText (mountpointDir name)).length < 256 :=
    (@workspacePath_eq name hname "mountpoint".toList (by decide)).2
  constructor
  · have hhead : (mountpointText name).head? = some '/' := rfl
    have hlast : (mountpointText name).getLast? ≠ some '/' := by
      rw [← htext]
      exact pathText_getLast
        (@layer_words name hname "mountpoint".toList ⟨by decide, by decide⟩ ⟨by decide, by decide⟩).1
        (List.cons_ne_nil _ _)
    unfold realpath
    rw [if_neg (fun h => by rw [h] at hhead; cases hhead), if_pos hhead, hresolve]
    simp only
    rw [if_neg fun h => hlast h.1, if_neg]
    rw [Cgroup.PATH_MAX]
    omega
  · rw [Space.loc_eq, hvol.table, topmost_append, topmost_eq_none hfree, Option.none_or, ← Space.loc_eq]
    exact overlay_loc_below made l (mountpointDir name) q

/-- **The container sees its image.**  When the workspace has been set up with an upper directory that was empty,
volumes have been mounted over it and the child has made it its root, an object of the image stands at the path
that it has in the image, unless that path is hidden by a volume or by `/proc` or was at `/old_root`. -/
theorem container_sees_image (hname : tdValidateName name 127 = .ok ()) (hnum : sp.Numbered)
    (htop : ∀ m ∈ sp.table, m.path ≠ []) (hopen : ∀ layer ∈ layers, OpenChain sp [] (layerDir name layer))
    (hunused : UnusedUpper sp name) (hmounts : Mounts overlay)
    (hlower : createReadonlyLayer archive cwd sp image = some lower) (hclean : Clean lower)
    (hl : sp.resolve [] (components lower) = .ok l)
    (hok : initContainerWorkerspace f archive overlay cwd sp name image = (sp₁, true)) (sp₂ : Space)
    (volumes : List Mount) (hvol : Volumed sp₁ sp₂ volumes) (hbound : ∀ m ∈ volumes, m.fs < sp.nextFs)
    (g : RootFaults) (order : Space → Path → List Path) (procfs : Path → Option Obj) (hwalk : Walks order)
    (hstart : (initAndSetNewRoot g order procfs cwd sp₂ (mountpointText name)).2 = true) (q : Path) (o : Obj)
    (hobj : sp.obj (sp.loc l).1 ((sp.loc l).2 ++ q) = some o) (hproc : ¬ [ "proc".toList] <+: q)
    (hold : ¬ [ "old_root".toList] <+: q) (hfree : ∀ m ∈ volumes, ¬ m.path <+: mountpointDir name ++ q) :
    (initAndSetNewRoot g order procfs cwd sp₂ (mountpointText name)).1.loc q = (sp.nextFs, q) ∧
      (initAndSetNewRoot g order procfs cwd sp₂ (mountpointText name)).1.obj sp.nextFs q = some o := by
  obtain ⟨made, hgrows, hreal, rfl⟩ := workspace_mounts hname hopen hunused hmounts hlower hclean hl hok
  have hnum' : made.Numbered := hnum.subset (Nat.le_of_eq hgrows.next.symm) (hgrows.table ▸ fun _ h => h)
  obtain ⟨hpoint, hloc⟩ := volumed_mountpoint hname hnum' hreal hvol hfree
  have hnext : sp₂.nextFs = sp.nextFs + 1 := hvol.next.trans (congrArg (· + 1) hgrows.next)
  have hmem : ∀ m ∈ sp₂.table, m ∈ sp.table ∨ m = ⟨mountpointDir name, made.nextFs, []⟩ ∨ m ∈ volumes := by
    intro m hm
    rw [hvol.table] at hm
    rcases List.mem_append.1 hm with hm | hm
    · rcases List.mem_append.1 hm with hm | hm
      · exact Or.inl (hgrows.table ▸ hm)
      · exact Or.inr (Or.inl (List.mem_singleton.1 hm))
    · exact Or.inr (Or.inr hm)
  have hnum₂ : sp₂.Numbered := by
    refine ⟨hnext ▸ Nat.succ_pos _, fun m hm => ?_⟩
    rw [hnext]
    rcases hmem m hm with hm | rfl | hm
    · exact Nat.lt_succ_of_lt (hnum.mounts m hm)
    · exact hgrows.next ▸ Nat.lt_succ_self _
    · exact Nat.lt_succ_of_lt (hbound m hm)
  have htop₂ : ∀ m ∈ sp₂.table, m.path ≠ [] := by
    intro m hm
    rcases hmem m hm with hm | rfl | hm
    · exact htop m hm
    · exact List.cons_ne_nil _ _
    · intro hnil
      exact hfree m hm (hnil ▸ List.nil_prefix)
  have hhead : (mountpointText name).head? = some '/' := rfl
  obtain ⟨-, hcwd⟩ := @initAndSetNewRoot_absolute g order procfs sp₂ cwd _ hhead
  rw [hcwd] at hstart ⊢
  have hlower₂ : sp₂.obj sp.nextFs q = some o := by
    refine hvol.keep _ _ _ ?_
    show (if sp.nextFs = made.nextFs then made.obj (made.loc l).1 ((made.loc l).2 ++ q) else _) = some o
    rw [if_pos hgrows.next.symm, hgrows.loc]
    exact hgrows.keep _ _ _ hobj
  rcases @new_root_spec g order procfs sp₂ [] (mountpointText name) hnum₂ hwalk htop₂ (Canonical.nil _) with
    hfail | ⟨root, hroot, hframe, hnew⟩
  · rw [hfail] at hstart
    cases hstart
  cases hroot.symm.trans hpoint
  obtain ⟨-, hroot'⟩ := hnew hstart
  refine ⟨(hroot'.below q hproc).trans (hloc.trans (by rw [hgrows.next])), ?_⟩
  rcases hframe sp.nextFs q (by omega) with hsame | ⟨s, hs⟩ | ⟨hnone, -⟩
  · exact hsame.trans hlower₂
  · -- below `old_root` there is a volume, or that part of the overlay
    rw [Space.loc_eq, hvol.table, topmost_append] at hs
    cases hcov : topmost volumes (mountpointDir name ++ "old_root".toList :: s) with
    | some m =>
      rw [hcov] at hs
      exact absurd (Prod.mk.inj hs).1 (Nat.ne_of_gt (hbound m (topmost_some hcov).1))
    | none =>
      rw [hcov, Option.none_or, ← Space.loc_eq] at hs
      rw [overlay_loc_below] at hs
      exact absurd ⟨s, (Prod.mk.inj hs).2.symm⟩ hold
  · rw [hlower₂] at hnone
    cases hnone

end

/-! ## A directory with one program as image -/

/-- A mount that takes the first option for the lower directory. -/
def overlayFirst (sp : Space) (data mountpoint : Text) : Option Space :=
  match cut ',' data with
  | none => none
  | some (first, _) =>
    match sp.resolve [] (components (first.drop 9)), sp.resolve [] (components mountpoint) with
    | .ok l, .ok p => some (sp.overlay l p)
    | _, _ => none

theorem overlayFirst_mounts : Mounts overlayFirst := by
  intro sp lower upper work mountpoint sp' l u p hlower _ _ hl _ _ hp h
  have hdata : overlayData lower upper work = ("lowerdir=".toList ++ lower) ++
      ',' :: ("upperdir=".toList ++ (upper ++ ',' :: ("workdir=".toList ++ work))) :=
    (List.append_assoc _ _ _).symm
  have hfirst : ',' ∉ "lowerdir=".toList ++ lower := by
    rw [List.mem_append, not_or]
    exact ⟨by decide, hlower.1⟩
  have hdrop : ("lowerdir=".toList ++ lower).drop 9 = lower := List.drop_left' (by decide)
  unfold overlayFirst at h
  rw [hdata, cut_append hfirst] at h
  simp only [hdrop, hl, hp, Option.some.injEq] at h
  exact h.symm

/-- The image `/srv/image` with the file `sh`, and the directory of the containers. -/
def imageTree : Space :=
  { obj := fun fs p =>
      if fs ≠ 0 then none
      else if p = [ "srv".toList, "image".toList, "sh".toList] then some .file
      else if p.isPrefixOf [ "srv".toList, "image".toList] then some .dir
      else if p.isPrefixOf [ "home".toList, "xanarry".toList, "tinydocker_runtime".toList, "containers".toList] then
        some .dir
      else none
    table := []
    nextFs := 1 }

theorem imageTree_open : ∀ layer ∈ layers, OpenChain imageTree [] (layerDir "web".toList layer) := by
  intro layer hlayer
  simp only [layers, List.mem_cons, List.not_mem_nil, or_false] at hlayer
  rcases hlayer with rfl | rfl | rfl <;>
    exact ⟨Or.inr (by decide), Or.inr (by decide), Or.inr (by decide), Or.inr (by decide), Or.inl (by decide),
      Or.inl (by decide), trivial⟩

theorem imageTree_unused : UnusedUpper imageTree "web".toList := by
  have hloc : ∀ p, imageTree.loc p = (0, p) := fun _ => rfl
  refine ⟨fun q hq => ?_, fun layer hlayer front hpre q hq => ?_⟩
  · rw [hloc]
    rfl
  · -- a path that is longer than all of them
    rw [hloc, hloc]
    intro he
    have hfront : front.length ≤ (layerDir "web".toList layer).length := hpre.length_le
    have hlen : front.length = (upperDir "web".toList ++ q).length := congrArg List.length (Prod.mk.inj he).2
    rw [List.length_append] at hlen
    have hpos := List.length_pos_of_ne_nil hq
    have hsame : (layerDir "web".toList layer).length = (upperDir "web".toList).length := rfl
    omega

/-- The workspace of `web`. -/
def webWorkspace : Space × Bool :=
  initContainerWorkerspace .none none overlayFirst [] imageTree "web".toList "/srv/image".toList

theorem program_seen :
    (initAndSetNewRoot .none (fun _ p => [p]) (fun _ => none) [] webWorkspace.1 (mountpointText "web".toList)).1.obj
      imageTree.nextFs [ "sh".toList] = some .file := by
  have hok : webWorkspace.2 = true := by decide +kernel
  have hrun : initContainerWorkerspace .none none overlayFirst [] imageTree "web".toList "/srv/image".toList =
      (webWorkspace.1, true) := by
    show webWorkspace = (webWorkspace.1, true)
    rw [← hok]
  have hlower : createReadonlyLayer none [] imageTree "/srv/image".toList = some "/srv/image".toList := by
    decide +kernel
  have hl : imageTree.resolve [] (components "/srv/image".toList) = .ok [ "srv".toList, "image".toList] := by
    decide +kernel
  have hstart : (initAndSetNewRoot .none (fun _ p => [p]) (fun _ => none) [] webWorkspace.1
      (mountpointText "web".toList)).2 = true := by
    decide +kernel
  have hobj : imageTree.obj (imageTree.loc [ "srv".toList, "image".toList]).1
      ((imageTree.loc [ "srv".toList, "image".toList]).2 ++ [ "sh".toList]) = some .file := by
    decide +kernel
  have hname : tdValidateName "web".toList 127 = .ok () := by decide +kernel
  have hclean : Clean "/srv/image".toList := ⟨by decide, by decide, by decide⟩
  have hvol : Volumed webWorkspace.1 webWorkspace.1 [] := ⟨(List.append_nil _).symm, rfl, fun _ _ _ h => h⟩
  have hseen := container_sees_image hname ⟨Nat.one_pos, fun _ h => (by cases h)⟩ (fun _ h => (by cases h))
    imageTree_open imageTree_unused overlayFirst_mounts hlower hclean hl hrun webWorkspace.1 [] hvol
    (fun _ h => (by cases h)) .none
    (fun _ p => [p]) (fun _ => none) walks_self hstart [ "sh".toList] .file hobj (by decide) (by decide)
    (fun _ h => (by cases h))
  exact hseen.2

end TinyDocker.Workspace
