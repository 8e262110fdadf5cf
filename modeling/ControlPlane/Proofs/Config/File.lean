import ControlPlane.Config.File
import ControlPlane.Proofs.Config.Toml
import ControlPlane.Proofs.Files

/-!
# ControlPlane.Proofs.Config.File

Settings in files.  What is saved is loaded; a file from which keys were taken out is loaded as the
settings that are left, with defaults for the others, if these together are accepted; settings with
a number that does not fit are not written at all (`saved_and_loaded`).
-/

namespace ControlPlane.Config

/-- Where all keys are kept, nothing is another. -/
theorem restrict_all (c : Config) : c.restrict (fun _ => true) (fun _ => true) = c := rfl

/-- Saving writes the whole document. -/
theorem saveSpelled_of_fits (spell : String → String) {c : Config} (h : c.Fits) (files : Files)
    (path : String) :
    c.saveSpelled spell files path
      = (files.write path
          (Utf8.encode (c.document spell (fun _ => true) fun _ => true))).mapError .file := by
  simp only [saveSpelled, documentText?_of_fits spell h]
  cases files.write path _ <;> rfl

/-- Without a document nothing is written. -/
theorem saveSpelled_of_not_fits (spell : String → String) {c : Config} (h : ¬ c.Fits)
    (files : Files) (path : String) : c.saveSpelled spell files path = .error .document := by
  simp only [saveSpelled, documentText?_of_not_fits spell h]

/-- What is loaded from a file is what its text holds, if that is accepted. -/
theorem load_eq_ok_iff {files : Files} {path text : String} {held : Config}
    (hread : files.readText path = .ok text) (hparse : parseToml? text = some held)
    {found : Config} :
    load files path = .ok found ↔ found = held ∧ held.validate = .ok () := by
  simp only [load, hread, hparse]
  cases held.validate with
  | error e => simp
  | ok u => simp [eq_comm]

/-- **Settings in files**, with strings written in any of their forms; `save` writes them between
quotes.  Settings whose numbers fit are saved wherever a file can be written, and if they are
accepted they are loaded from there.  Whatever keys are taken out of the document, of the settings
and of their intervals, what is left is read as the settings that are kept, with defaults for the
others; it is loaded if and only if these together are accepted.  Settings with a number that does
not fit are not saved, and no file is written. -/
theorem saved_and_loaded {spell : String → String}
    (hspell : ∀ s, Toml.Spells (spell s).toList s.toList) (c : Config) :
    (c.Fits →
      (∀ (files : Files) (path : String), files.Writable path →
        ∃ files', c.saveSpelled spell files path = .ok files'
          ∧ files'.readText path = .ok (c.document spell (fun _ => true) fun _ => true)
          ∧ (c.validate = .ok () → load files' path = .ok c))
      ∧ ∀ keep keepRaft : String → Bool,
        parseToml? (c.document spell keep keepRaft) = some (c.restrict keep keepRaft)
          ∧ ∀ (files : Files) (path : String) (found : Config),
            files.readText path = .ok (c.document spell keep keepRaft) →
              (load files path = .ok found
                ↔ found = c.restrict keep keepRaft
                  ∧ (c.restrict keep keepRaft).validate = .ok ()))
    ∧ (¬ c.Fits →
      ∀ (files : Files) (path : String), c.saveSpelled spell files path = .error .document) := by
  refine ⟨fun hfits => ⟨fun files path hwritable => ?_, fun keep keepRaft => ?_⟩,
    saveSpelled_of_not_fits spell⟩
  · obtain ⟨files', hwrite⟩ := hwritable.exists_write
      (Utf8.encode (c.document spell (fun _ => true) fun _ => true))
    have hread := Files.readText_of_write hwrite
    have hparse := parseToml?_document hspell hfits (fun _ => true) fun _ => true
    rw [restrict_all] at hparse
    exact ⟨files', by rw [saveSpelled_of_fits spell hfits, hwrite]; rfl, hread,
      fun hvalid => (load_eq_ok_iff hread hparse).2 ⟨rfl, hvalid⟩⟩
  · have hparse := parseToml?_document hspell hfits keep keepRaft
    exact ⟨hparse, fun files path found hread => load_eq_ok_iff hread hparse⟩

/-- Settings whose strings need escapes, with a peer, and with intervals of their own. -/
def quotedSettings : Config where
  nodeId := 7
  hostname := some "a \"b\"\n\x01"
  dataDir := "C:\\data"
  peers := [⟨2, "", true⟩]
  raft :=
    { heartbeatIntervalMs := 2000
      electionTimeoutMinMs := 4000
      electionTimeoutMaxMs := 8000 }

/-- A path without quotes or line breaks between apostrophes, all other strings between quotes. -/
def spellPath (s : String) : String := if s = "C:\\data" then "'C:\\data'" else Toml.quote s

theorem spells_spellPath (s : String) : Toml.Spells (spellPath s).toList s.toList := by
  rw [spellPath]
  split
  · next h =>
    subst h
    exact .literal (s := "C:\\data".toList) (List.all_eq_true.1 (by decide))
  · exact Toml.spells_quote s

/-- Without the shortest time until an election the intervals that are left do not go together with
its default, and the file is not loaded; with a number of 64 bits that needs no sign, nothing is
saved. -/
theorem saved_and_loaded_quoted :
    (∃ files', quotedSettings.saveSpelled spellPath Files.empty "node.toml" = .ok files'
        ∧ load files' "node.toml" = .ok quotedSettings)
      ∧ (∃ files : Files,
        files.readText "node.toml" = .ok (quotedSettings.document spellPath (fun _ => true)
            fun key => key != "election_timeout_min_ms")
          ∧ ∀ found, load files "node.toml" ≠ .ok found)
      ∧ ({ quotedSettings with nodeId := 9223372036854775808 }.save Files.empty "node.toml"
        = .error .document) := by
  obtain ⟨hsaved, -⟩ := saved_and_loaded spells_spellPath quotedSettings
  obtain ⟨hfull, hpart⟩ := hsaved (by decide)
  refine ⟨?_, ?_, ?_⟩
  · obtain ⟨files', hsave, -, hload⟩ := hfull Files.empty "node.toml" ⟨_, rfl⟩
    exact ⟨files', hsave, hload rfl⟩
  · have hwrite : Files.empty.write "node.toml"
        (Utf8.encode (quotedSettings.document spellPath (fun _ => true)
          fun key => key != "election_timeout_min_ms")) = .ok _ := rfl
    have hread := Files.readText_of_write hwrite
    refine ⟨_, hread, fun found hfound => ?_⟩
    obtain ⟨-, hvalid⟩ := ((hpart _ _).2 _ _ found hread).1 hfound
    exact absurd hvalid (by decide)
  · exact (saved_and_loaded Toml.spells_quote _).2 (by decide) Files.empty "node.toml"

end ControlPlane.Config
