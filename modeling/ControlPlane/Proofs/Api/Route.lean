import ControlPlane.Api

/-!
# ControlPlane.Proofs.Api.Route

What requests to delete something ask for.  Only storage groups can be deleted, each at a path of
its own: its name, percent-encoded or not, behind the path of all storage groups.
-/

namespace ControlPlane.Api

open Http

/-- The paths of storage groups: a name without slashes, which is not empty, behind the path of all
of them. -/
theorem ofPath?_eq_storageGroup_iff {path name : List Char} :
    Route.ofPath? path = some (.storageGroup name)
      ↔ path = storageGroupPath ++ name ∧ name ≠ [] ∧ '/' ∉ name := by
  have hfixed : fixedRoutes.lookup path ≠ some (.storageGroup name) := fun h => by
    obtain ⟨before, after, heq, -⟩ := List.lookup_eq_some_iff.1 h
    have hmem : (path, Route.storageGroup name) ∈ fixedRoutes := heq ▸ by simp
    simp [fixedRoutes] at hmem
  have hlookup (hbegins : storageGroupPath.isPrefixOf path = true) :
      fixedRoutes.lookup path = none := by
    refine List.lookup_eq_none_iff.2 fun e he => ?_
    have hnot : ∀ e ∈ fixedRoutes, storageGroupPath.isPrefixOf e.1 = false := by decide
    have hne : path ≠ e.1 := fun heq => by
      rw [heq, hnot e he] at hbegins
      cases hbegins
    simpa using hne
  rw [Route.ofPath?]
  cases h : fixedRoutes.lookup path with
  | some route =>
      simp only
      refine ⟨fun heq => absurd (h.trans heq) hfixed, fun hpath => ?_⟩
      rw [hlookup (by simp [hpath.1])] at h
      cases h
  | none =>
      simp only
      constructor
      · intro hroute
        split at hroute
        · next hbegins =>
            split at hroute
            · cases hroute
            · next hname =>
                obtain ⟨tail, rfl⟩ := List.isPrefixOf_iff_prefix.1 hbegins
                rw [List.drop_left] at hroute hname
                cases hroute
                rw [not_or, List.isEmpty_iff] at hname
                exact ⟨rfl, hname⟩
        · cases hroute
      · intro hpath
        obtain ⟨rfl, hne, hslash⟩ := hpath
        rw [if_pos (by simp), List.drop_left]
        exact if_neg (by simp [hne, hslash])

/-- What can be deleted are storage groups, by the names that their paths stand for. -/
theorem call_delete_eq_ok_iff {r : Request} (h : r.method = "DELETE") {c : Call} :
    call r = .ok c ↔ ∃ name s, pathOf r.target = storageGroupPath ++ name ∧ name ≠ [] ∧ '/' ∉ name
      ∧ Percent.decodeText? name = some s
      ∧ c = .submit (.deleteStorageGroup s) (.record [("deleted", .text s)]) := by
  constructor
  · intro hcall
    rw [call, h] at hcall
    cases hroute : Route.ofPath? (pathOf r.target) with
    | none => simp [hroute] at hcall
    | some route =>
        simp only [hroute] at hcall
        split at hcall
        · next hmethod =>
            cases route with
            | storageGroup name =>
                obtain ⟨hpath, hne, hslash⟩ := ofPath?_eq_storageGroup_iff.1 hroute
                rw [Route.call] at hcall
                cases hs : Percent.decodeText? name with
                | none => simp [hs] at hcall
                | some s =>
                    simp only [hs, Except.ok.injEq] at hcall
                    exact ⟨name, s, hpath, hne, hslash, hs, hcall.symm⟩
            | _ => simp [Route.methods] at hmethod
        · cases hcall
  · intro hname
    obtain ⟨name, s, hpath, hne, hslash, hs, rfl⟩ := hname
    have hroute := ofPath?_eq_storageGroup_iff.2 ⟨hpath, hne, hslash⟩
    rw [call, hroute, h]
    simp only [Route.methods, List.mem_singleton, if_true, Route.call, hs]

end ControlPlane.Api
