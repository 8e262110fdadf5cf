import ControlPlane.Cli.Replica
import ControlPlane.Proofs.Number.Integer

/-!
# ControlPlane.Proofs.Cli.Replica

Which texts are replicas.  The id is what stands in front of the first at sign, the port what stands
behind the last colon of the rest, and the address all that is between them; nothing else about the
text matters, so there is one way to take it apart (`readReplica_eq_ok_iff`).
-/

namespace ControlPlane.Cli

open Integer (Spells)

/-! ## cutting -/

theorem cutLast_eq_none_iff {mark : Char} {text : List Char} :
    cutLast mark text = none ↔ mark ∉ text := by
  induction text with
  | nil => simp [cutLast]
  | cons c rest ih =>
    simp only [cutLast]
    cases h : cutLast mark rest with
    | some p =>
      have hm : mark ∈ rest := Decidable.byContradiction fun hm => by simp [ih.2 hm] at h
      simp [hm]
    | none =>
      have hm : mark ∉ rest := ih.1 h
      by_cases hc : c = mark
      · simp [hc]
      · simp [hc, hm, Ne.symm hc]

theorem cutLast_append {mark : Char} {before after : List Char} (h : mark ∉ after) :
    cutLast mark (before ++ mark :: after) = some (before, after) := by
  induction before with
  | nil => simp [cutLast, cutLast_eq_none_iff.2 h]
  | cons c before ih => simp [cutLast, ih]

theorem eq_of_cutLast {mark : Char} {text before after : List Char}
    (h : cutLast mark text = some (before, after)) :
    text = before ++ mark :: after ∧ mark ∉ after := by
  induction text generalizing before after with
  | nil => simp [cutLast] at h
  | cons c rest ih =>
    simp only [cutLast] at h
    split at h
    · next x y hxy =>
      obtain ⟨rfl, rfl⟩ := Prod.mk.inj (Option.some.inj h)
      obtain ⟨rfl, hy⟩ := ih hxy
      exact ⟨rfl, hy⟩
    · next hnone =>
      split at h
      · next hc =>
        obtain ⟨rfl, rfl⟩ := Prod.mk.inj (Option.some.inj h)
        exact ⟨by rw [hc]; rfl, cutLast_eq_none_iff.1 hnone⟩
      · cases h

theorem cutFirst_append {mark : Char} {before after : List Char} (h : mark ∉ before) :
    cutFirst mark (before ++ mark :: after) = some (before, after) := by
  induction before with
  | nil => simp [cutFirst]
  | cons c before ih =>
    have hc : c ≠ mark := fun hc => h (hc ▸ List.mem_cons_self)
    simp [cutFirst, hc, ih fun hm => h (List.mem_cons_of_mem _ hm)]

theorem eq_of_cutFirst {mark : Char} {text before after : List Char}
    (h : cutFirst mark text = some (before, after)) :
    text = before ++ mark :: after ∧ mark ∉ before := by
  induction text generalizing before after with
  | nil => simp [cutFirst] at h
  | cons c rest ih =>
    simp only [cutFirst] at h
    split at h
    · next hc =>
      obtain ⟨rfl, rfl⟩ := Prod.mk.inj (Option.some.inj h)
      exact ⟨by rw [hc]; rfl, List.not_mem_nil⟩
    · next hc =>
      obtain ⟨⟨x, y⟩, hxy, hp⟩ := Option.map_eq_some_iff.1 h
      obtain ⟨rfl, rfl⟩ := Prod.mk.inj hp
      obtain ⟨rfl, hx⟩ := ih hxy
      exact ⟨rfl, by simp [Ne.symm hc, hx]⟩

/-! ## reading what was written -/

/-- A replica as it is written: the data node, and its endpoint as it is shown. -/
def replicaText (l : Location) : List Char :=
  Decimal.signed l.dataNodeId.toInt ++ '@' :: l.internalEndpoint.label.toList

theorem not_mem_signed {c : Char} (hd : Decimal.isDigit c = false) (hm : c ≠ '-') (n : Int) :
    c ∉ Decimal.signed n := fun h => by
  rcases Integer.isDigit_or_minus_of_mem_signed h with h | h
  · rw [hd] at h; cases h
  · exact hm h

theorem readEndpoint_label (e : Endpoint) : readEndpoint e.label.toList = .ok e := by
  have h : e.label.toList = e.ip.toList ++ ':' :: Decimal.signed e.port.toInt := by
    simp [Endpoint.label, Decimal.text]
  rw [readEndpoint, h, cutLast_append (not_mem_signed (by decide) (by decide) _)]
  simp [Integer.readInt32_signed]

theorem readReplica_replicaText (l : Location) : readReplica (replicaText l) = .ok l := by
  rw [readReplica, replicaText, cutFirst_append (not_mem_signed (by decide) (by decide) _)]
  simp [Integer.readInt32_signed, readEndpoint_label, Except.map]

/-! ## texts that are replicas -/

/-- A text gives a replica: an id in front of the first at sign, an address, and a port behind the
last colon. -/
def GivesReplica (text : List Char) (id : Int) (ip : List Char) (port : Int) : Prop :=
  ∃ idText portText, text = idText ++ '@' :: (ip ++ ':' :: portText) ∧ '@' ∉ idText
    ∧ ':' ∉ portText ∧ Spells idText id ∧ Spells portText port

/-- An endpoint is read from an address and a port behind the last colon. -/
theorem readEndpoint_eq_ok_iff {text : List Char} {e : Endpoint} :
    readEndpoint text = .ok e
      ↔ ∃ portText, text = e.ip.toList ++ ':' :: portText ∧ ':' ∉ portText
        ∧ Spells portText e.port.toInt := by
  constructor
  · intro h
    unfold readEndpoint at h
    split at h
    · cases h
    · next ip portText hcut =>
      obtain ⟨rfl, hcolon⟩ := eq_of_cutLast hcut
      split at h
      · next port hport =>
        obtain rfl := Except.ok.inj h
        exact ⟨portText, by rw [String.toList_ofList], hcolon,
          Integer.readInt32_eq_ok_iff.1 hport⟩
      · cases h
  · rintro ⟨portText, rfl, hcolon, hport⟩
    rw [readEndpoint, cutLast_append hcolon]
    simp only [Integer.readInt32_eq_ok_iff.2 hport, String.ofList_toList]

/-- **Replicas**: a text is read if and only if it gives the replica. -/
theorem readReplica_eq_ok_iff {text : List Char} {l : Location} :
    readReplica text = .ok l ↔ GivesReplica text l.dataNodeId.toInt l.internalEndpoint.ip.toList
      l.internalEndpoint.port.toInt := by
  constructor
  · intro h
    unfold readReplica at h
    split at h
    · cases h
    · next idText rest hcut =>
      obtain ⟨rfl, hat⟩ := eq_of_cutFirst hcut
      split at h
      · next id hid =>
        cases hrest : readEndpoint rest with
        | error e =>
            rw [hrest] at h
            cases h
        | ok e =>
            rw [hrest] at h
            obtain rfl := Except.ok.inj h
            obtain ⟨portText, rfl, hcolon, hport⟩ := readEndpoint_eq_ok_iff.1 hrest
            exact ⟨idText, portText, rfl, hat, hcolon, Integer.readInt32_eq_ok_iff.1 hid, hport⟩
      · cases h
  · rintro ⟨idText, portText, rfl, hat, hcolon, hid, hport⟩
    have hrest : readEndpoint (l.internalEndpoint.ip.toList ++ ':' :: portText)
        = .ok l.internalEndpoint := readEndpoint_eq_ok_iff.2 ⟨portText, rfl, hcolon, hport⟩
    rw [readReplica, cutFirst_append hat]
    simp only [Integer.readInt32_eq_ok_iff.2 hid, hrest]
    rfl

/-- An integer of 32 bits. -/
def IsInt32 (n : Int) : Prop := -2147483648 ≤ n ∧ n ≤ 2147483647

theorem exists_toInt_eq_iff {n : Int} : (∃ v : Int32, v.toInt = n) ↔ IsInt32 n := by
  constructor
  · rintro ⟨v, rfl⟩
    exact ⟨v.minValue_le_toInt, v.toInt_le⟩
  · rintro ⟨hlow, hhigh⟩
    exact ⟨Int32.ofInt n, Int32.toInt_ofInt_of_le hlow (Int.lt_of_le_of_lt hhigh (by decide))⟩

/-- A text is read as some replica if and only if it gives one whose numbers have 32 bits. -/
theorem exists_readReplica_iff {text : List Char} :
    (∃ l, readReplica text = .ok l)
      ↔ ∃ id ip port, GivesReplica text id ip port ∧ IsInt32 id ∧ IsInt32 port := by
  constructor
  · rintro ⟨l, h⟩
    exact ⟨_, _, _, readReplica_eq_ok_iff.1 h, exists_toInt_eq_iff.1 ⟨_, rfl⟩,
      exists_toInt_eq_iff.1 ⟨_, rfl⟩⟩
  · rintro ⟨id, ip, port, h, hid, hport⟩
    obtain ⟨id, rfl⟩ := exists_toInt_eq_iff.2 hid
    obtain ⟨port, rfl⟩ := exists_toInt_eq_iff.2 hport
    exact ⟨⟨id, ⟨String.ofList ip, port⟩⟩,
      readReplica_eq_ok_iff.2 (by simpa [String.toList_ofList] using h)⟩

end ControlPlane.Cli
