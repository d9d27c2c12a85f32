import TapeSalvage.Command.Store

/-!
Reading what was written. A path that leads to a file leads there in every store with the same
folders, whatever files there are. So a file that was written is read back, and a file in another
place is left as it was.
-/
namespace TapeSalvage.Command.Store

variable {store other next : Store} {path : String} {name : String} {data : Bytes}

@[simp] theorem folders_put (store : Store) (name : String) (data : Bytes) :
    (store.put name data).folders = store.folders := by
  unfold put
  split <;> rfl

theorem isFolder_congr (h : store.folders = other.folders) : store.isFolder = other.isFolder := by
  funext folder
  unfold isFolder
  rw [h]

theorem enter_eq_ok_iff (folder : Folder) (part : String) (after : Folder) :
    store.enter folder part = .ok after ↔
      store.isFolder (folder.step part) = true ∧ folder.step part = after := by
  unfold enter
  dsimp only
  split
  · rename_i hfolder
    simp [hfolder]
  · rename_i hfolder
    split <;> simp [hfolder]

theorem foldlM_enter_congr (h : store.folders = other.folders) {parts : List String}
    {folder after : Folder} (hparts : parts.foldlM store.enter folder = .ok after) :
    parts.foldlM other.enter folder = .ok after := by
  induction parts generalizing folder with
  | nil => exact hparts
  | cons part rest ih =>
    rw [List.foldlM_cons] at hparts ⊢
    cases hstep : store.enter folder part with
    | error place =>
      rw [hstep] at hparts
      contradiction
    | ok inner =>
      rw [hstep] at hparts
      rw [enter_eq_ok_iff, isFolder_congr h, ← enter_eq_ok_iff] at hstep
      rw [hstep]
      exact ih hparts

theorem enter_ne_file (folder : Folder) (part name : String) :
    store.enter folder part ≠ .error (.file name) := by
  unfold enter
  dsimp only
  split
  · simp
  · split <;> simp

/-- Only the last part of a path can lead to a file. -/
theorem foldlM_enter_ne_file (parts : List String) (folder : Folder) (name : String) :
    parts.foldlM store.enter folder ≠ .error (.file name) := by
  induction parts generalizing folder with
  | nil =>
    intro h
    contradiction
  | cons part rest ih =>
    rw [List.foldlM_cons]
    cases hstep : store.enter folder part with
    | error place =>
      intro h
      exact enter_ne_file folder part name (hstep.trans h)
    | ok inner => exact ih inner

/-- What a path to a file is made of. -/
theorem place_eq_file_iff (store : Store) (path name : String) :
    store.place path = .file name ↔
      ∃ last folder, (pathParts path).getLast? = some last ∧
        (pathParts path).dropLast.foldlM store.enter (Folder.start path) = .ok folder ∧
        store.placeIn path folder last = .file name := by
  unfold place
  dsimp only
  split
  · rename_i hlast
    rw [hlast]
    split <;> simp
  · rename_i last place hlast hfold
    rw [hlast, hfold]
    constructor
    · rintro rfl
      exact absurd hfold (foldlM_enter_ne_file _ _ name)
    · rintro ⟨_, _, _, h, _⟩
      contradiction
  · rename_i last folder hlast hfold
    rw [hlast, hfold]
    simp

/-- Where files stand depends on the folders alone. -/
theorem place_congr (h : store.folders = other.folders) (hplace : store.place path = .file name) :
    other.place path = .file name := by
  rw [place_eq_file_iff] at hplace ⊢
  obtain ⟨last, folder, hlast, hfold, hplaceIn⟩ := hplace
  refine ⟨last, folder, hlast, foldlM_enter_congr h hfold, ?_⟩
  rw [← hplaceIn]
  unfold placeIn
  rw [isFolder_congr h]

theorem place_ne_congr {apart : String} (h : store.folders = other.folders)
    (hplace : store.place path = .file name) (hne : store.place apart ≠ store.place path) :
    other.place apart ≠ other.place path := by
  intro heq
  rw [place_congr h hplace] at heq
  exact hne ((place_congr h.symm heq).trans hplace.symm)

theorem write_eq_ok_iff :
    store.write path data = .ok next ↔
      ∃ name, store.place path = .file name ∧ store.put name data = next := by
  unfold write
  cases store.place path <;> simp

theorem folders_of_write (h : store.write path data = .ok next) : next.folders = store.folders := by
  obtain ⟨name, _, rfl⟩ := write_eq_ok_iff.mp h
  exact folders_put store name data

theorem read_eq_ok_iff :
    store.read path = .ok data ↔
      ∃ name, store.place path = .file name ∧ store.get? name = some data := by
  unfold read
  cases store.place path with
  | file name => cases hdata : store.get? name <;> simp [hdata]
  | slashed name => simp
  | folder => simp
  | nowhere => simp
  | beyondFile => simp

/-- A file that was written is read back. -/
theorem read_of_write (h : store.write path data = .ok next) : next.read path = .ok data := by
  have hfolders := folders_of_write h
  obtain ⟨name, hplace, rfl⟩ := write_eq_ok_iff.mp h
  exact read_eq_ok_iff.mpr
    ⟨name, place_congr hfolders.symm hplace, get?_put_self store name data⟩

/-- A file is not changed by writing one in another place. -/
theorem read_of_write_apart {apart : String} {old : Bytes} (h : store.write path data = .ok next)
    (hne : store.place apart ≠ store.place path) (hread : store.read apart = .ok old) :
    next.read apart = .ok old := by
  have hfolders := folders_of_write h
  obtain ⟨name, hplace, rfl⟩ := write_eq_ok_iff.mp h
  obtain ⟨found, hfound, hold⟩ := read_eq_ok_iff.mp hread
  have hname : found ≠ name := by
    rintro rfl
    exact hne (hfound.trans hplace.symm)
  refine read_eq_ok_iff.mpr ⟨found, place_congr hfolders.symm hfound, ?_⟩
  rw [get?_put_of_ne store data hname, hold]

end TapeSalvage.Command.Store
