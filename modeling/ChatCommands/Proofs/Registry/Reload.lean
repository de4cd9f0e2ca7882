import ChatCommands.Proofs.Concurrency.AtOnce
import ChatCommands.Proofs.Registry.Contents

/-!
A registry that is kept in a command file, while the file changes.

The versions of the file are told apart by their modification times.  What the registry holds is at
any time what one of the versions describes, with the modification time of that version; a call
keeps this, whether it reads the file, finds what it knows, or fails.  Hence each call answers from
the version that is at the path, or it fails and leaves the registry as it was.
-/

namespace ChatCommands.Registry

open Concurrency Act

variable {path : Text} {v : OnDisk} {vs : List OnDisk} {st : FileState} {m : Int} {f : CommandFile}

/-! ### Versions of a file -/

namespace OnDisk

/-- The version is a file with this modification time that can be read, and it describes this. -/
def Holds (v : OnDisk) (mtime : Int) (f : CommandFile) : Prop :=
  ∃ content, v = .file content mtime ∧ Describes content f

theorem holds_iff : v.Holds m f ↔
    v.mtime = .ok m ∧ ∃ content, v.read = .ok content ∧ readContent content = .ok f := by
  constructor
  · rintro ⟨content, rfl, hdescribes⟩
    exact ⟨rfl, content, rfl, readContent_eq_ok_iff.mpr hdescribes⟩
  · rintro ⟨hmtime, content, hread, hcontent⟩
    cases v with
    | file content' mtime =>
      cases hmtime
      cases hread
      exact ⟨content, rfl, readContent_eq_ok_iff.mp hcontent⟩
    | absent | directory _ | withheld _ _ => cases hread

end OnDisk

/-- Modification times tell versions apart: of two with the same time either both have the same
bytes, or neither can be read. -/
def ToldApart (vs : List OnDisk) : Prop :=
  ∀ v ∈ vs, ∀ v' ∈ vs, ∀ m, v.mtime = .ok m → v'.mtime = .ok m →
    v.read.toOption = v'.read.toOption

/-- What the registry has read is what one of the versions describes. -/
def Remembers (vs : List OnDisk) (st : FileState) : Prop :=
  ∀ m, st.mtime = some m → ∃ v ∈ vs, ∃ f, v.Holds m f ∧ st = f.loaded m

theorem Remembers.mono {vs' : List OnDisk} (h : Remembers vs st) (hsubset : vs ⊆ vs') :
    Remembers vs' st := by
  intro m hm
  obtain ⟨v, hv, hst⟩ := h m hm
  exact ⟨v, hsubset hv, hst⟩

/-- A version with the time that the registry remembers describes what it has read. -/
theorem Remembers.holds (hremembers : Remembers vs st) (hvs : ToldApart vs) (hv : v ∈ vs)
    (hmtime : v.mtime = .ok m) (hm : st.mtime = some m) : ∃ f, v.Holds m f ∧ st = f.loaded m := by
  obtain ⟨v', hv', f, hholds, hst⟩ := hremembers m hm
  obtain ⟨hmtime', content, hread', hcontent⟩ := OnDisk.holds_iff.mp hholds
  have hsame := hvs v hv v' hv' m hmtime hmtime'
  rw [hread'] at hsame
  refine ⟨f, OnDisk.holds_iff.mpr ⟨hmtime, content, ?_, hcontent⟩, hst⟩
  cases hread : v.read with
  | error cause =>
    rw [hread] at hsame
    cases hsame
  | ok content' =>
    rw [hread] at hsame
    cases hsame
    rfl

/-! ### Bringing the state up to date -/

theorem load_of_error {cause : Host.Errno} (hmtime : v.mtime = .error cause) :
    load path st v = .error (cause.fault path) := by
  rw [load, hmtime]
  rfl

theorem load_of_ok (hmtime : v.mtime = .ok m) : load path st v =
    if st.mtime = some m then .ok st
    else ((v.read.mapError (·.fault path)).bind readContent).map (·.loaded m) := by
  rw [load, hmtime]
  change (if st.mtime = some m then _ else _) = _
  split
  · rfl
  · cases v.read with
    | error cause => rfl
    | ok content =>
      change (readContent content).bind _ = (readContent content).map _
      cases readContent content <;> rfl

/-- **A version that can be read and is valid is what the registry holds afterwards.** -/
theorem refresh_of_holds (hvs : ToldApart vs) (hv : v ∈ vs) (hremembers : Remembers vs st)
    (hholds : v.Holds m f) : refresh path st v = .ok (f.loaded m) := by
  obtain ⟨hmtime, content, hread, hcontent⟩ := OnDisk.holds_iff.mp hholds
  by_cases hm : st.mtime = some m
  · obtain ⟨f', hholds', hst⟩ := hremembers.holds hvs hv hmtime hm
    obtain ⟨-, content', hread', hcontent'⟩ := OnDisk.holds_iff.mp hholds'
    rw [hread] at hread'
    cases hread'
    rw [hcontent] at hcontent'
    cases hcontent'
    rw [refresh, load_of_ok hmtime, if_pos hm, hst]
    rfl
  · rw [refresh, load_of_ok hmtime, if_neg hm, hread]
    simp only [Except.mapError, Except.bind, hcontent]
    rfl

/-- **Any other version is refused.** -/
theorem refresh_of_not_holds (hvs : ToldApart vs) (hv : v ∈ vs) (hremembers : Remembers vs st)
    (hnot : ∀ m f, ¬ v.Holds m f) :
    ∃ cause, refresh path st v = .error (unreadable path cause) := by
  cases hmtime : v.mtime with
  | error cause =>
    rw [refresh, load_of_error hmtime]
    exact ⟨_, rfl⟩
  | ok m =>
    by_cases hm : st.mtime = some m
    · -- a version with the remembered time is valid, as the one that was read
      obtain ⟨f, hholds, -⟩ := hremembers.holds hvs hv hmtime hm
      exact absurd hholds (hnot m f)
    · rw [refresh, load_of_ok hmtime, if_neg hm]
      cases hread : v.read with
      | error cause => exact ⟨_, rfl⟩
      | ok content =>
        cases hcontent : readContent content with
        | error fault =>
          refine ⟨fault, ?_⟩
          simp only [Except.mapError, Except.bind, hcontent]
          rfl
        | ok f => exact absurd (OnDisk.holds_iff.mpr ⟨hmtime, content, hread, hcontent⟩) (hnot m f)

/-! ### Calls one after the other -/

/-- A call: what is at the path is asked about a tenant. -/
def FileRegistry.ask {ω : Type} (r : FileRegistry ω) : Matter → (tenant : Text) → Action ω Told
  | .commands, tenant => Told.commands <$> r.commands tenant
  | .sigil, tenant => Told.sigil <$> r.sigil tenant

/-- A command file and the state of its registry. -/
structure Cabinet where
  disk : OnDisk := .absent
  state : FileState := {}

/-- The registry of the command file, which is at this path. -/
def Cabinet.registry (path : Text) : FileRegistry Cabinet where
  path
  state := ⟨Cabinet.state, fun st c => { c with state := st }⟩
  onDisk := Cabinet.disk

/-- What happens to a command file: there is another version, or the registry is asked. -/
inductive FileEvent
  | change (v : OnDisk)
  | ask (matter : Matter) (tenant : Text)

/-- From the world `start` on the events have happened, one after the other, up to this world; the
events begin with the latest. -/
inductive FileHistory (path : Text) (start : World Cabinet) : List FileEvent → World Cabinet → Prop
  | start : FileHistory path start [] start
  | change {es w} (v : OnDisk) (before : FileHistory path start es w) :
    FileHistory path start (.change v :: es) { w with env := { w.env with disk := v } }
  | ask {es w r w'} (matter : Matter) (tenant : Text) (before : FileHistory path start es w)
    (hcall : ((Cabinet.registry path).ask matter tenant).ComesTo w r w') :
    FileHistory path start (.ask matter tenant :: es) w'

/-- The versions that were at the path, latest first. -/
def versions (first : OnDisk) : List FileEvent → List OnDisk
  | [] => [first]
  | .change v :: es => v :: versions first es
  | .ask _ _ :: es => versions first es

/-- The version that is at the path. -/
def currentVersion (first : OnDisk) : List FileEvent → OnDisk
  | [] => first
  | .change v :: _ => v
  | .ask _ _ :: es => currentVersion first es

/-- What is promised of a call, with the ending `r`, that takes the registry from the world `w` to
the world `w'`. -/
structure Answered (path : Text) (matter : Matter) (tenant : Text) (w : World Cabinet)
    (r : Ending Told) (w' : World Cabinet) : Prop where
  /-- It succeeds if the version at the path can be read and is valid, and only then. -/
  succeeds_iff : (∃ told, r = .ok told) ↔ ∃ m f, w.env.disk.Holds m f
  /-- It then answers from just this version, which the registry holds afterwards. -/
  answers : ∀ m f, w.env.disk.Holds m f →
    r = .ok (f.tell tenant matter) ∧ w'.env = { w.env with state := f.loaded m }
  /-- Otherwise the registry is reported as unavailable, and nothing has changed. -/
  fails : ∀ failure, r = .error failure →
    (∃ cause, failure = .fault (unreadable path cause)) ∧ w' = w

variable {start w w' : World Cabinet} {es : List FileEvent} {now : FileState} {fault : Fault}

/-! ### One call -/

namespace Cabinet

/-- The world once the registry has this state; that a file was read is noted in the log. -/
def settled (path : Text) (now : FileState) (w : World Cabinet) : World Cabinet :=
  { w with
    env := { w.env with state := now }
    journal :=
      if w.env.state.mtime ≠ now.mtime then
        ⟨.info, .store, text "Command file loaded",
          [("path", .str path), ("commands", .int now.listed)]⟩ :: w.journal
      else w.journal }

theorem comesTo_store (h : refresh path w.env.state w.env.disk = .ok now) :
    (registry path).store.ComesTo w (.ok now.snapshot) (settled path now w) := by
  have hrefresh : (Act.ofExcept (refresh path w.env.state w.env.disk) :
      Action Cabinet FileState).ComesTo w (.ok now) w := by
    rw [h]
    exact comesTo_ofExcept _ w
  unfold FileRegistry.store
  refine (comesTo_gets _ w).bind ((comesTo_gets _ w).bind (hrefresh.bind ?_))
  refine (comesTo_change _ w).bind ?_
  change ComesTo (if w.env.state.mtime ≠ now.mtime then _ else _) _ _ _
  unfold settled
  split
  · exact (comesTo_modify _ _).bind (comesTo_pure now.snapshot _)
  · exact comesTo_pure now.snapshot _

theorem comesTo_store_error (h : refresh path w.env.state w.env.disk = .error fault) :
    (registry path).store.ComesTo w (.error (.fault fault)) w := by
  have hrefresh : (Act.ofExcept (refresh path w.env.state w.env.disk) :
      Action Cabinet FileState).ComesTo w (.error (.fault fault)) w := by
    rw [h]
    exact comesTo_ofExcept _ w
  unfold FileRegistry.store
  exact (comesTo_gets _ w).bind ((comesTo_gets _ w).bind hrefresh.bind_error)

theorem comesTo_ask (matter : Matter) (tenant : Text)
    (h : refresh path w.env.state w.env.disk = .ok now) :
    ((registry path).ask matter tenant).ComesTo w (.ok (now.snapshot.tell tenant matter))
      (settled path now w) := by
  cases matter with
  | commands => exact ((comesTo_store h).bind (comesTo_pure _ _)).map
  | sigil => exact ((comesTo_store h).bind (comesTo_pure _ _)).map

theorem comesTo_ask_error (matter : Matter) (tenant : Text)
    (h : refresh path w.env.state w.env.disk = .error fault) :
    ((registry path).ask matter tenant).ComesTo w (.error (.fault fault)) w := by
  cases matter with
  | commands => exact ((comesTo_store_error h).bind_error).map
  | sigil => exact ((comesTo_store_error h).bind_error).map

/-- **A call keeps what it is promised**, and the registry remembers one of the versions. -/
theorem exists_answered (hvs : ToldApart vs) (hdisk : w.env.disk ∈ vs)
    (hremembers : Remembers vs w.env.state) (matter : Matter) (tenant : Text) :
    ∃ r w', ((registry path).ask matter tenant).ComesTo w r w' ∧
      Answered path matter tenant w r w' ∧ Remembers vs w'.env.state ∧
      w'.env.disk = w.env.disk := by
  by_cases hvalid : ∃ m f, w.env.disk.Holds m f
  · obtain ⟨m, f, hholds⟩ := hvalid
    have hrefresh : ∀ m f, w.env.disk.Holds m f →
        refresh path w.env.state w.env.disk = .ok (f.loaded m) :=
      fun m f => refresh_of_holds hvs hdisk hremembers
    refine ⟨_, _, comesTo_ask matter tenant (hrefresh m f hholds), ⟨?_, ?_, nofun⟩, ?_, rfl⟩
    · exact ⟨fun _ => ⟨m, f, hholds⟩, fun _ => ⟨_, rfl⟩⟩
    · intro m' f' hholds'
      have hsame : f.loaded m = f'.loaded m' :=
        Except.ok.inj ((hrefresh m f hholds).symm.trans (hrefresh m' f' hholds'))
      rw [hsame]
      exact ⟨congrArg _ (f'.tell_toStore tenant matter), rfl⟩
    · intro m' hm'
      cases hm'
      exact ⟨_, hdisk, f, hholds, rfl⟩
  · have hnot : ∀ m f, ¬ w.env.disk.Holds m f := fun m f hholds => hvalid ⟨m, f, hholds⟩
    obtain ⟨cause, hrefresh⟩ : ∃ cause, refresh path w.env.state w.env.disk =
        .error (unreadable path cause) := refresh_of_not_holds hvs hdisk hremembers hnot
    refine ⟨_, _, comesTo_ask_error matter tenant hrefresh, ⟨?_, ?_, ?_⟩, hremembers, rfl⟩
    · exact ⟨fun ⟨_, htold⟩ => (nomatch htold), fun h => absurd h hvalid⟩
    · exact fun m f hholds => absurd hholds (hnot m f)
    · rintro failure hfailure
      cases hfailure
      exact ⟨⟨cause, rfl⟩, rfl⟩

end Cabinet

/-! ### All sequences of calls -/

theorem ToldApart.mono {vs' : List OnDisk} (h : ToldApart vs') (hsubset : vs ⊆ vs') :
    ToldApart vs :=
  fun v hv v' hv' => h v (hsubset hv) v' (hsubset hv')

theorem currentVersion_mem_versions (first : OnDisk) (es : List FileEvent) :
    currentVersion first es ∈ versions first es := by
  induction es with
  | nil => exact List.mem_singleton_self first
  | cons e es ih =>
    cases e with
    | change v => exact List.mem_cons_self
    | ask matter tenant => exact ih

namespace FileHistory

theorem unique (h : FileHistory path start es w) (h' : FileHistory path start es w') : w' = w := by
  induction h generalizing w' with
  | start =>
    cases h'
    rfl
  | change v _ ih =>
    cases h' with
    | change _ before => rw [ih before]
  | ask matter tenant _ hcall ih =>
    cases h' with
    | ask _ _ before hcall' =>
      rw [ih before] at hcall'
      exact (hcall'.unique hcall).2

/-- **The registry remembers one of the versions**, whatever has happened. -/
theorem remembers (h : FileHistory path start es w) (hstart : start.env.state = {})
    (hvs : ToldApart (versions start.env.disk es)) :
    w.env.disk = currentVersion start.env.disk es ∧
      Remembers (versions start.env.disk es) w.env.state := by
  -- a change only adds a version, and a call leaves one of the versions remembered
  induction h with
  | start =>
    refine ⟨rfl, fun m hm => ?_⟩
    rw [hstart] at hm
    cases hm
  | change v _ ih =>
    obtain ⟨-, hremembers⟩ := ih (hvs.mono (List.subset_cons_self v _))
    exact ⟨rfl, hremembers.mono (List.subset_cons_self v _)⟩
  | @ask es w _ _ matter tenant _ hcall ih =>
    obtain ⟨hdisk, hremembers⟩ := ih hvs
    have hmem : w.env.disk ∈ versions start.env.disk es :=
      hdisk ▸ currentVersion_mem_versions start.env.disk es
    obtain ⟨r, w', hcomes, -, hremembers', hdisk'⟩ :=
      Cabinet.exists_answered hvs hmem hremembers matter tenant
    obtain ⟨-, rfl⟩ := hcall.unique hcomes
    exact ⟨hdisk'.trans hdisk, hremembers'⟩

/-- Every call comes to an end. -/
theorem exists_world (path : Text) (start : World Cabinet) (es : List FileEvent) :
    ∃ w, FileHistory path start es w := by
  induction es with
  | nil => exact ⟨_, .start⟩
  | cons e es ih =>
    obtain ⟨w, before⟩ := ih
    cases e with
    | change v => exact ⟨_, before.change v⟩
    | ask matter tenant =>
      cases hrefresh : refresh path w.env.state w.env.disk with
      | ok now => exact ⟨_, before.ask matter tenant (Cabinet.comesTo_ask matter tenant hrefresh)⟩
      | error fault =>
        exact ⟨_, before.ask matter tenant (Cabinet.comesTo_ask_error matter tenant hrefresh)⟩

end FileHistory

namespace Cabinet

/-- A file with a prefix for one tenant. -/
def prefixFile : CommandFile := { sigils := [(text "guild", text "?")] }

/-- The file as a version. -/
def good : OnDisk :=
  .file ((text "\x7b\"prefixes\": \x7b\"guild\": \"?\"\x7d\x7d").flatMap Utf8.encodePoint) 1

/-- A version that breaks off. -/
def broken : OnDisk := .file ((text "\x7b\"prefixes\"").flatMap Utf8.encodePoint) 2

/-- The file is written, broken, and written as it was before, and the registry is asked in between;
the last event first. -/
def mishap : List FileEvent := [.change good, .ask .sigil (text "guild"), .change broken,
  .ask .sigil (text "guild"), .change good]

theorem good_holds : good.Holds 1 prefixFile :=
  OnDisk.holds_iff.mpr ⟨rfl, _, rfl, by cbv⟩

theorem mishap_toldApart : ToldApart (versions .absent mishap) := by
  intro v hv v' hv' m hm hm'
  have hcases : ∀ u ∈ versions .absent mishap, u = good ∨ u = broken ∨ u = .absent := by
    simp [versions, mishap]
  obtain rfl | rfl | rfl := hcases v hv <;> obtain rfl | rfl | rfl := hcases v' hv' <;>
    cases hm <;> cases hm' <;> rfl

end Cabinet

end ChatCommands.Registry
