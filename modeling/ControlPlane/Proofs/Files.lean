import ControlPlane.Files
import ControlPlane.Proofs.Lookup
import ControlPlane.Proofs.Wire.Frame

/-!
# ControlPlane.Proofs.Files

What is written to a file is read back from it, whatever the path (`Files.read_of_write`).  Writing
puts a file where none but a file was, so every directory stays one, and a path that steps through
directories leads to the same place afterwards.
-/

namespace ControlPlane.Files

open Wire (except_bind_eq_ok_iff)

/-! ## putting -/

/-- Something is put into a directory itself, or into one of its children. -/
theorem put_cons {children : List (String × Files)} {n : String} {rest : List String}
    {new root' : Files} (h : (directory children).put (n :: rest) new = .ok root') :
    ∃ child', root' = directory (replaceEntry children n child')
      ∧ (rest = [] ∧ child' = new
        ∨ ∃ child, children.lookup n = some child ∧ child.put rest new = .ok child') := by
  cases rest with
  | nil => exact ⟨new, (Except.ok.inj h).symm, .inl ⟨rfl, rfl⟩⟩
  | cons m rest =>
      simp only [put] at h
      split at h
      · cases h
      · next child hchild =>
        obtain ⟨child', hput, hroot⟩ := except_bind_eq_ok_iff.1 h
        obtain rfl := Except.ok.inj hroot
        refine ⟨child', ?_, .inr ⟨child, hchild, hput⟩⟩
        rw [replaceEntry, hchild, Option.isSome_some, if_pos rfl]

theorem find_nil (root : Files) : root.find [] = .ok root := by
  rw [find]

theorem find_cons_of_some {children : List (String × Files)} {n : String} {child : Files}
    (h : children.lookup n = some child) (rest : List String) :
    (directory children).find (n :: rest) = child.find rest := by
  rw [find]
  simp only [h]

theorem find_cons_of_none {children : List (String × Files)} {n : String}
    (h : children.lookup n = none) (rest : List String) :
    (directory children).find (n :: rest) = .error .notFound := by
  rw [find]
  simp only [h]

/-- What is put at the end of a list of names is found there. -/
theorem find_put {root root' new : Files} {names : List String}
    (h : root.put names new = .ok root') : root'.find names = .ok new := by
  induction names generalizing root root' with
  | nil =>
      rw [put, Except.ok.injEq] at h
      rw [← h, find_nil]
  | cons n rest ih =>
      cases root with
      | file content =>
          rw [put] at h
          cases h
      | directory children =>
          obtain ⟨child', rfl, hrest⟩ := put_cons h
          have hchild : (replaceEntry children n child').lookup n = some child' := by
            rw [lookup_replaceEntry, if_pos rfl]
          rw [find_cons_of_some hchild]
          rcases hrest with ⟨rfl, rfl⟩ | ⟨child, -, hput⟩
          · exact find_nil _
          · exact ih hput

/-- Whatever can be put somewhere, something else can be put there too. -/
theorem put_of_put {root root' new : Files} {names : List String}
    (h : root.put names new = .ok root') (other : Files) :
    ∃ root'', root.put names other = .ok root'' := by
  induction names generalizing root root' with
  | nil => exact ⟨other, rfl⟩
  | cons n rest ih =>
      cases root with
      | file content =>
          rw [put] at h
          cases h
      | directory children =>
          cases rest with
          | nil => exact ⟨_, rfl⟩
          | cons m rest =>
              simp only [put] at h ⊢
              split at h
              · cases h
              · next child hchild =>
                obtain ⟨child', hput, -⟩ := except_bind_eq_ok_iff.1 h
                obtain ⟨child'', hother⟩ := ih hput
                exact ⟨_, by simp only [hother]; rfl⟩

/-- Whether there is a directory at the end of a list of names. -/
def IsDirectory (root : Files) (names : List String) : Prop :=
  ∃ children, root.find names = .ok (directory children)

/-- Where something other than a directory is replaced, or nothing was, directories stay. -/
theorem isDirectory_put {root root' new : Files} {names : List String}
    (h : root.put names new = .ok root') (hnot : ¬ root.IsDirectory names) {done : List String}
    (hdone : root.IsDirectory done) : root'.IsDirectory done := by
  induction names generalizing root root' done with
  | nil =>
      -- What is replaced as a whole is a file, and has nothing in it.
      obtain ⟨children, hfind⟩ := hdone
      cases root with
      | file content => cases done <;> simp [find] at hfind
      | directory children => exact absurd ⟨children, find_nil _⟩ hnot
  | cons n rest ih =>
      cases root with
      | file content =>
          rw [put] at h
          cases h
      | directory children =>
          obtain ⟨child', rfl, hrest⟩ := put_cons h
          cases done with
          | nil => exact ⟨_, find_nil _⟩
          | cons m done =>
              obtain ⟨below, hfind⟩ := hdone
              have hlookup := lookup_replaceEntry children n m child'
              cases hm : children.lookup m with
              | none =>
                  rw [find_cons_of_none hm] at hfind
                  cases hfind
              | some child =>
                  rw [find_cons_of_some hm] at hfind
                  by_cases hmn : m = n
                  · subst hmn
                    rw [if_pos rfl] at hlookup
                    have hnot' : ¬ child.IsDirectory rest := by
                      rintro ⟨found, hfound⟩
                      exact hnot ⟨found, by rw [find_cons_of_some hm, hfound]⟩
                    rcases hrest with ⟨rfl, rfl⟩ | ⟨child₀, hchild₀, hput⟩
                    · cases child with
                      | file content => cases done <;> simp [find] at hfind
                      | directory found => exact absurd ⟨found, find_nil _⟩ hnot'
                    · obtain rfl := Option.some.inj (hm.symm.trans hchild₀)
                      obtain ⟨found, hfound⟩ := ih hput hnot' ⟨below, hfind⟩
                      exact ⟨found, by rw [find_cons_of_some hlookup, hfound]⟩
                  · rw [if_neg hmn, hm] at hlookup
                    exact ⟨below, by rw [find_cons_of_some hlookup, hfind]⟩

/-! ## paths -/

/-- Steps lead to the same place where all directories are still there. -/
theorem walk_of_isDirectory {root root' : Files}
    (h : ∀ done, root.IsDirectory done → root'.IsDirectory done) {names done found : List String}
    (hwalk : root.walk done names = .ok found) : root'.walk done names = .ok found := by
  induction names generalizing done with
  | nil => simpa [walk] using hwalk
  | cons n rest ih =>
      rw [walk] at hwalk ⊢
      split at hwalk
      · next hup =>
        rw [if_pos hup]
        split at hwalk
        · next children hfind =>
          obtain ⟨children', hfind'⟩ := h done ⟨children, hfind⟩
          simp only [hfind']
          exact ih hwalk
        · cases hwalk
        · cases hwalk
      · next hup =>
        rw [if_neg hup]
        exact ih hwalk

section Resolved

variable {root : Files} {p : Path} {names : List String} (h : root.resolve p = .ok names)
include h

theorem findPath_of_file {content : Bytes} (hfind : root.find names = .ok (file content)) :
    root.findPath p
      = if p.mustBeDirectory then .error .notDirectory else .ok (file content) := by
  rw [findPath, h]
  show (root.find names >>= _) = _
  rw [hfind]
  rfl

theorem findPath_of_directory {children : List (String × Files)}
    (hfind : root.find names = .ok (directory children)) :
    root.findPath p = .ok (directory children) := by
  rw [findPath, h]
  show (root.find names >>= _) = _
  rw [hfind]
  rfl

theorem findPath_of_error {e : FileError} (hfind : root.find names = .error e) :
    root.findPath p = .error e := by
  rw [findPath, h]
  show (root.find names >>= _) = _
  rw [hfind]
  rfl

end Resolved

/-- A file is put where a path leads to, if that is no directory, and none is asked for. -/
theorem put_of_write {root root' : Files} {path : String} {content : Bytes}
    (h : root.write path content = .ok root') :
    ∃ p names, Path.ofString path = .ok p ∧ root.resolve p = .ok names
      ∧ p.mustBeDirectory = false ∧ ¬ root.IsDirectory names
      ∧ root.put names (.file content) = .ok root' := by
  obtain ⟨p, hp, h⟩ := except_bind_eq_ok_iff.1 h
  obtain ⟨names, hnames, h⟩ := except_bind_eq_ok_iff.1 h
  refine ⟨p, names, hp, hnames, ?_⟩
  cases hfound : root.find names with
  | error e =>
      have hnot : ¬ root.IsDirectory names := by
        rintro ⟨children, hchildren⟩
        rw [hfound] at hchildren
        cases hchildren
      rw [findPath_of_error hnames hfound] at h
      cases e with
      | notFound =>
          obtain ⟨_, -, h⟩ := except_bind_eq_ok_iff.1 h
          cases hmust : p.mustBeDirectory with
          | true =>
              rw [hmust] at h
              cases h
          | false =>
              rw [hmust] at h
              exact ⟨rfl, hnot, h⟩
      | _ => cases h
  | ok found =>
      cases found with
      | directory children =>
          rw [findPath_of_directory hnames hfound] at h
          cases h
      | file old =>
          have hnot : ¬ root.IsDirectory names := by
            rintro ⟨children, hchildren⟩
            rw [hfound] at hchildren
            cases hchildren
          rw [findPath_of_file hnames hfound] at h
          cases hmust : p.mustBeDirectory with
          | true =>
              rw [hmust] at h
              cases h
          | false =>
              rw [hmust] at h
              exact ⟨rfl, hnot, h⟩

/-- Whether a file can be written at a path. -/
def Writable (root : Files) (path : String) : Prop := ∃ root', root.write path [] = .ok root'

/-- Where one content can be written another can. -/
theorem Writable.exists_write {root : Files} {path : String} (h : root.Writable path)
    (content : Bytes) : ∃ root', root.write path content = .ok root' := by
  obtain ⟨root', h⟩ := h
  obtain ⟨p, hp, h⟩ := except_bind_eq_ok_iff.1 h
  obtain ⟨names, hnames, h⟩ := except_bind_eq_ok_iff.1 h
  simp only [write, hp, hnames, bind, Except.bind] at h ⊢
  cases hfound : root.findPath p with
  | ok found =>
      simp only [hfound] at h ⊢
      cases found with
      | directory children => cases h
      | file old => exact put_of_put h _
  | error e =>
      simp only [hfound] at h ⊢
      cases e with
      | notFound =>
          simp only at h ⊢
          cases hparent : root.find names.dropLast with
          | error e =>
              rw [hparent] at h
              cases h
          | ok parent =>
              simp only [hparent] at h ⊢
              split at h
              · cases h
              · next hmust =>
                rw [if_neg hmust]
                exact put_of_put h _
      | _ => cases h

/-- **Files are read back**: what is written to a path is read from it. -/
theorem read_of_write {root root' : Files} {path : String} {content : Bytes}
    (h : root.write path content = .ok root') : root'.read path = .ok content := by
  obtain ⟨p, names, hp, hnames, hmust, hnot, hput⟩ := put_of_write h
  have hresolve : root'.resolve p = .ok names := by
    rw [resolve] at hnames ⊢
    split at hnames
    · cases hnames
    · next habsolute =>
      rw [if_neg habsolute]
      exact walk_of_isDirectory (fun done hdone => isDirectory_put hput hnot hdone) hnames
  have hfind : root'.findPath p = .ok (.file content) := by
    rw [findPath_of_file hresolve (find_put hput), hmust]
    rfl
  rw [read, hp]
  show (root'.findPath p >>= _) = _
  rw [hfind]
  rfl

/-- A text that is written to a path is read from it. -/
theorem readText_of_write {root root' : Files} {path s : String}
    (h : root.write path (Utf8.encode s) = .ok root') : root'.readText path = .ok s := by
  rw [readText, read_of_write h]
  simp only [bind, Except.bind, Utf8.decode?_encode]
  rfl

end ControlPlane.Files
