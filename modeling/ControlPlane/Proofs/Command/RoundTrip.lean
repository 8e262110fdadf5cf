import ControlPlane.Proofs.Command.Inverse

/-!
# ControlPlane.Proofs.Command.RoundTrip

What is written is read back.  A command has a written form exactly if its lengths and counts fit
their 32-bit fields (`exists_encode_iff_fits`).  The form is read back from the front of any stream,
so a stream of commands is taken apart into the commands that were written, in order, with nothing
left over (`decode_encode_stream`).
-/

namespace ControlPlane

open Wire

/-! ## commands that fit the wire -/

/-- The length of a text fits its field. -/
def TextFits (s : String) : Prop := (Utf8.encode s).length < 2147483648

/-- The lengths of a location fit their fields. -/
def Location.Fits (l : Location) : Prop := TextFits l.internalEndpoint.ip

/-- The lengths and counts of a replica set fit their fields. -/
def ReplicaSet.Fits (r : ReplicaSet) : Prop :=
  r.locations.length < 2147483648 ∧ ∀ l ∈ r.locations, l.Fits

/-- The lengths and counts of a map of region groups fit their fields. -/
def RegionGroupMap.Fits (m : RegionGroupMap) : Prop :=
  m.entries.length < 2147483648 ∧
    ∀ p ∈ m.entries, TextFits p.1 ∧ p.2.length < 2147483648 ∧ ∀ r ∈ p.2, r.Fits

/-- The lengths and counts of a command fit their fields. -/
def Command.Fits : Command → Prop
  | .registerDataNode location => location.Fits
  | .setStorageGroup schema => TextFits schema.name
  | .deleteStorageGroup name => TextFits name
  | .createRegionGroups groups => RegionGroupMap.Fits groups

instance (s : String) : Decidable (TextFits s) := inferInstanceAs (Decidable (_ < _))

instance (l : Location) : Decidable l.Fits := inferInstanceAs (Decidable (TextFits _))

instance (r : ReplicaSet) : Decidable r.Fits := inferInstanceAs (Decidable (_ ∧ _))

instance (m : RegionGroupMap) : Decidable m.Fits := inferInstanceAs (Decidable (_ ∧ _))

instance : (c : Command) → Decidable c.Fits
  | .registerDataNode location => inferInstanceAs (Decidable location.Fits)
  | .setStorageGroup schema => inferInstanceAs (Decidable (TextFits schema.name))
  | .deleteStorageGroup name => inferInstanceAs (Decidable (TextFits name))
  | .createRegionGroups groups => inferInstanceAs (Decidable (RegionGroupMap.Fits groups))

theorem exists_putText_iff (field : Field) {s : String} :
    (∃ e, putText field s = .ok e) ↔ TextFits s := by
  simp [putText_eq_ok_iff, TextFits]

/-- A run of items is written exactly if each item is. -/
theorem exists_putMany_iff {α : Type} {put : α → Except EncodeError Bytes} {l : List α} :
    (∃ e, putMany put l = .ok e) ↔ ∀ a ∈ l, ∃ e, put a = .ok e := by
  induction l with
  | nil => simp [putMany]
  | cons a l ih =>
      simp only [putMany_cons_eq_ok_iff, List.forall_mem_cons, ← ih]
      constructor
      · intro h
        obtain ⟨_, head, tail, hhead, htail, -⟩ := h
        exact ⟨⟨head, hhead⟩, tail, htail⟩
      · intro h
        obtain ⟨⟨head, hhead⟩, tail, htail⟩ := h
        exact ⟨_, head, tail, hhead, htail, rfl⟩

/-- What is written around a part can be written if the part can. -/
theorem exists_around_iff {p : Bytes → Prop} {f : Bytes → Bytes} :
    (∃ e a, p a ∧ e = f a) ↔ ∃ a, p a :=
  ⟨fun ⟨_, a, h, _⟩ => ⟨a, h⟩, fun ⟨a, h⟩ => ⟨_, a, h, rfl⟩⟩

theorem Location.exists_encode_iff_fits {l : Location} : (∃ e, l.encode = .ok e) ↔ l.Fits := by
  simp only [Location.Fits, ← exists_putText_iff .endpointIp, Location.encode_eq_ok_iff,
    Endpoint.encode_eq_ok_iff, exists_around_iff]

theorem ReplicaSet.exists_encode_iff_fits {r : ReplicaSet} :
    (∃ e, r.encode = .ok e) ↔ r.Fits := by
  simp only [ReplicaSet.Fits, ← Location.exists_encode_iff_fits, ← exists_putMany_iff,
    ReplicaSet.encode_eq_ok_iff]
  constructor
  · intro h
    obtain ⟨_, _, locations, -, hcount, hlocations, -⟩ := h
    exact ⟨hcount, locations, hlocations⟩
  · intro h
    obtain ⟨hcount, locations, hlocations⟩ := h
    exact ⟨_, _, locations, rfl, hcount, hlocations, rfl⟩

theorem RegionGroupMap.exists_encode_iff_fits {m : RegionGroupMap} :
    (∃ e, RegionGroupMap.encode m = .ok e) ↔ m.Fits := by
  have hentry (p : String × List ReplicaSet) : (∃ e, encodeEntry p = .ok e) ↔
      TextFits p.1 ∧ p.2.length < 2147483648 ∧ ∀ r ∈ p.2, r.Fits := by
    simp only [← ReplicaSet.exists_encode_iff_fits, ← exists_putMany_iff, encodeEntry_eq_ok_iff,
      ← exists_putText_iff .storageGroupName]
    constructor
    · intro h
      obtain ⟨_, name, sets, hname, hcount, hsets, -⟩ := h
      exact ⟨⟨name, hname⟩, hcount, sets, hsets⟩
    · intro h
      obtain ⟨⟨name, hname⟩, hcount, sets, hsets⟩ := h
      exact ⟨_, name, sets, hname, hcount, hsets, rfl⟩
  simp only [RegionGroupMap.Fits, ← hentry, ← exists_putMany_iff, encode_eq_ok_iff]
  constructor
  · intro h
    obtain ⟨_, entries, hcount, hentries, -⟩ := h
    exact ⟨hcount, entries, hentries⟩
  · intro h
    obtain ⟨hcount, entries, hentries⟩ := h
    exact ⟨_, entries, hcount, hentries, rfl⟩

namespace Command

/-- A command has a written form exactly if its lengths and counts fit. -/
theorem exists_encode_iff_fits {c : Command} : (∃ e, c.encode = .ok e) ↔ c.Fits := by
  have hpayload : (∃ e, c.encodePayload = .ok e) ↔ c.Fits := by
    cases c with
    | registerDataNode location => exact Location.exists_encode_iff_fits
    | setStorageGroup schema =>
        simp only [Fits, ← exists_putText_iff .storageGroupName, encodePayload,
          StorageGroupSchema.encode_eq_ok_iff, exists_around_iff]
    | deleteStorageGroup name => exact exists_putText_iff _
    | createRegionGroups groups => exact RegionGroupMap.exists_encode_iff_fits
  simp only [← hpayload, encode_eq_ok_iff, exists_around_iff]

/-! ## streams of commands -/

/-- Reading a command takes its tag at least, so a stream gets shorter. -/
theorem length_lt_of_reader {b rest : Bytes} {c : Command} (h : reader b = (.ok c, rest)) :
    rest.length < b.length := by
  obtain ⟨e, he, rfl⟩ := (reader_inverts b c rest).1 h
  obtain ⟨payload, -, rfl⟩ := encode_eq_ok_iff.1 he
  simp only [List.length_append, length_putInt32]
  omega

/-- Reads commands off the front of a stream for as long as bytes are left. -/
def drain (b : Bytes) : Except DecodeError (List Command) × Bytes :=
  if b = [] then (.ok [], [])
  else
    match _h : reader b with
    | (.ok c, rest) => ((drain rest).1.map (c :: ·), (drain rest).2)
    | (.error e, rest) => (.error e, rest)
termination_by b.length
decreasing_by all_goals exact length_lt_of_reader _h

/-- A command in front of a stream comes out first. -/
theorem drain_append {c : Command} {e : Bytes} (he : c.encode = .ok e) (b : Bytes) :
    drain (e ++ b) = ((drain b).1.map (c :: ·), (drain b).2) := by
  have hread : reader (e ++ b) = (.ok c, b) := (reader_inverts _ _ _).2 ⟨e, he, rfl⟩
  have hne : e ++ b ≠ [] := by
    intro h
    have hlt := length_lt_of_reader hread
    simp [h] at hlt
  rw [drain, if_neg hne]
  split
  · next c' rest h =>
      rw [hread] at h
      cases h
      rfl
  · next e' rest h =>
      rw [hread] at h
      cases h

/-- A stream of written commands gives the commands back. -/
theorem drain_flatten {cs : List Command} {bs : List Bytes} (h : cs.mapM encode = .ok bs) :
    drain bs.flatten = (.ok cs, []) := by
  induction cs generalizing bs with
  | nil =>
      cases h
      simp [drain]
  | cons c cs ih =>
      rw [List.mapM_cons] at h
      obtain ⟨e, he, h⟩ := except_bind_eq_ok_iff.1 h
      obtain ⟨es, hes, h⟩ := except_bind_eq_ok_iff.1 h
      obtain rfl := except_pure_eq_ok_iff.1 h
      rw [List.flatten_cons, drain_append he, ih hes]
      rfl

/-- Commands that fit are written one by one. -/
theorem exists_mapM_encode {cs : List Command} (h : ∀ c ∈ cs, c.Fits) :
    ∃ bs, cs.mapM encode = .ok bs := by
  induction cs with
  | nil => exact ⟨[], rfl⟩
  | cons c cs ih =>
      obtain ⟨e, he⟩ := exists_encode_iff_fits.2 (h c List.mem_cons_self)
      obtain ⟨es, hes⟩ := ih fun c hc => h c (List.mem_cons_of_mem _ hc)
      refine ⟨e :: es, ?_⟩
      rw [List.mapM_cons, he, hes]
      rfl

/-- **Round trip**: a command that fits is written, its bytes are read back from the front of any
stream, and as a whole; and the concatenated bytes of any commands that fit are taken apart into
these commands, in order, until no byte is left. -/
theorem decode_encode_stream :
    (∀ c : Command, c.Fits →
      ∃ b, c.encode = .ok b ∧ (∀ rest, reader (b ++ rest) = (.ok c, rest)) ∧ decode b = .ok c) ∧
    (∀ cs : List Command, (∀ c ∈ cs, c.Fits) →
      ∃ bs, cs.mapM encode = .ok bs ∧ drain bs.flatten = (.ok cs, [])) := by
  constructor
  · intro c hc
    obtain ⟨b, hb⟩ := exists_encode_iff_fits.2 hc
    exact ⟨b, hb, fun rest => (reader_inverts _ _ _).2 ⟨b, hb, rfl⟩,
      decode_eq_ok_iff_encode.2 hb⟩
  · intro cs hcs
    obtain ⟨bs, hbs⟩ := exists_mapM_encode hcs
    exact ⟨bs, hbs, drain_flatten hbs⟩

/-- Two small commands in a row: one without a name, and one with a storage group that gets no
region groups and another whose region group has no replicas. -/
def smallest : List Command :=
  [.deleteStorageGroup "",
    .createRegionGroups (SortedMap.ofList [("", []), ("é", [⟨⟨.dataRegion, -1⟩, []⟩])])]

theorem decode_encode_stream_smallest :
    (∀ c ∈ smallest, c.Fits) ∧
      (∀ c ∈ smallest, ∃ b, c.encode = .ok b ∧ (∀ rest, reader (b ++ rest) = (.ok c, rest)) ∧
        decode b = .ok c) ∧
      ∃ bs, smallest.mapM encode = .ok bs ∧ drain bs.flatten = (.ok smallest, []) := by
  have hfits : ∀ c ∈ smallest, c.Fits := by decide
  exact ⟨hfits, fun c hc => decode_encode_stream.1 c (hfits c hc),
    decode_encode_stream.2 smallest hfits⟩

end Command

end ControlPlane
