import WsGateway.Network.MasterService

/-!
# The redirection table

The loop over the entries keeps `Filled k`: the entries before `k` are set, with
their bits in the masks of their groups, and no other bit is. After the last entry
the first half of the table belongs to queue 0 and the rest to queue 1. The sample
entries that are read back for the log are in fixed groups, which a small table
does not have.
-/

namespace WsGateway.Network.DpdkMasterService

open Library

/-! ## The table -/

/-- The queue that the table has for an entry. -/
def entryOf (table : Table RetaEntry64) (i : Nat) : Option UInt16 :=
  table.elems[i / kRetaGroupSize]?.bind fun e => e.reta[i % kRetaGroupSize]?

/-- How many of the first `n` entries belong to a queue. -/
def share (table : Table RetaEntry64) (n : Nat) (queue : UInt16) : Nat :=
  (List.range n).countP fun i => entryOf table i == some queue

/-- The entries before `k` are set. -/
structure Filled (retaSize nbRxQueues : UInt16) (k : Nat) (table : Table RetaEntry64) : Prop where
  length : table.elems.length = (retaConfSize retaSize).toNat
  inBounds : table.InBounds
  masks : ∀ group e, table.elems[group]? = some e → ∀ bit < kRetaGroupSize,
    (e.mask.toNat.testBit bit = true ↔ kRetaGroupSize * group + bit < k)
  entries : ∀ i : UInt16, i.toNat < k →
    entryOf table i.toNat = some (queueOf retaSize nbRxQueues i)

section Loop

variable {retaSize nbRxQueues i : UInt16} {table : Table RetaEntry64}

/-- A group for every 64 entries, the last of which may be incomplete. -/
theorem toNat_retaConfSize (retaSize : UInt16) :
    (retaConfSize retaSize).toNat = (retaSize.toNat + 63) / 64 := by
  have hlt := retaSize.toNat_lt
  rw [retaConfSize, UInt16.toNat_ofNat']
  change (retaSize.toNat + 64 - 1) / 64 % 2 ^ 16 = _
  omega

theorem newGroups_filled (retaSize nbRxQueues : UInt16) :
    Filled retaSize nbRxQueues 0 (newGroups (retaConfSize retaSize)) where
  length := by simp [newGroups, Table.ofSize]
  inBounds := Table.inBounds_ofSize _ _
  masks group e he bit _ := by
    have hzero : e.mask = 0 := by
      simp only [newGroups, Table.ofSize, List.getElem?_replicate] at he
      split at he
      · cases he
        rfl
      · cases he
    simp [hzero]
  entries i hi := absurd hi (Nat.not_lt_zero _)

/-- `mask |= 1ULL << position` sets this bit and no other. -/
theorem testBit_setMask (mask : UInt64) {position : Nat} (hp : position < 64) (bit : Nat) :
    (mask ||| 1 <<< (UInt16.ofNat position).toUInt64).toNat.testBit bit =
      (mask.toNat.testBit bit || decide (bit = position)) := by
  have hposition : (UInt16.ofNat position).toUInt64.toNat % 64 = position := by
    rw [UInt16.toNat_toUInt64, UInt16.toNat_ofNat']
    omega
  rw [UInt64.toNat_or, UInt64.toNat_shiftLeft, hposition, Nat.testBit_or, Nat.testBit_mod_two_pow,
    Nat.testBit_shiftLeft]
  have hone : (1 : UInt64).toNat.testBit (bit - position) = decide (bit - position = 0) := by
    rw [Bool.eq_iff_iff, UInt64.toNat_one, Nat.testBit_one_eq_true_iff_self_eq_zero,
      decide_eq_true_iff]
  rw [hone, ← Bool.decide_and, ← Bool.decide_and]
  congr 1
  exact decide_eq_decide.mpr (by omega)

/-- What the loop body does to the table. -/
def setGroup (retaSize nbRxQueues i : UInt16) (e : RetaEntry64) : RetaEntry64 where
  mask := e.mask ||| 1 <<< (UInt16.ofNat (i.toNat % kRetaGroupSize)).toUInt64
  reta := e.reta.setIfInBounds (i.toNat % kRetaGroupSize) (queueOf retaSize nbRxQueues i)

theorem setGroup_mask (e : RetaEntry64) (bit : Nat) :
    (setGroup retaSize nbRxQueues i e).mask.toNat.testBit bit =
      (e.mask.toNat.testBit bit || decide (bit = i.toNat % kRetaGroupSize)) :=
  testBit_setMask e.mask (Nat.mod_lt _ (by decide)) bit

theorem setGroup_reta (e : RetaEntry64) (position : Nat) :
    (setGroup retaSize nbRxQueues i e).reta[position]? =
      if position = i.toNat % kRetaGroupSize then some (queueOf retaSize nbRxQueues i)
        else e.reta[position]? := by
  have hlt : i.toNat % kRetaGroupSize < kRetaGroupSize := Nat.mod_lt _ (by decide)
  rw [setGroup, Vector.getElem?_setIfInBounds, if_pos hlt]
  simp only [eq_comm]

theorem setEntry_apply : setEntry retaSize nbRxQueues i table = .ok ()
    ⟨table.elems.modify (i.toNat / kRetaGroupSize) (setGroup retaSize nbRxQueues i),
      table.subscripts ++ [i.toNat / kRetaGroupSize] ++ [i.toNat / kRetaGroupSize]⟩ := by
  have hgroup : (UInt16.ofNat (i.toNat / kRetaGroupSize)).toNat = i.toNat / kRetaGroupSize :=
    UInt16.toNat_ofNat_of_lt' (Nat.lt_of_le_of_lt (Nat.div_le_self _ _) i.toNat_lt)
  have hposition : (UInt16.ofNat (i.toNat % kRetaGroupSize)).toNat = i.toNat % kRetaGroupSize :=
    UInt16.toNat_ofNat_of_lt' (Nat.lt_of_le_of_lt (Nat.mod_le _ _) i.toNat_lt)
  rw [setEntry, hgroup, hposition, Table.update, bind_of_ok (modify_apply _ _), Table.update,
    modify_apply]
  dsimp only
  rw [List.modify_modify_eq]
  rfl

theorem setEntry_masks (h : Filled retaSize nbRxQueues i.toNat table) {group : Nat}
    {e : RetaEntry64} (he : (table.elems.modify (i.toNat / kRetaGroupSize)
      (setGroup retaSize nbRxQueues i))[group]? = some e) {bit : Nat} (hb : bit < kRetaGroupSize) :
    e.mask.toNat.testBit bit = true ↔ kRetaGroupSize * group + bit < i.toNat + 1 := by
  by_cases hgroup : i.toNat / kRetaGroupSize = group
  · rw [hgroup, List.getElem?_modify_eq] at he
    obtain ⟨e₀, hold, rfl⟩ := Option.map_eq_some_iff.mp he
    have hmask := h.masks group e₀ hold bit hb
    rw [setGroup_mask, Bool.or_eq_true, hmask, decide_eq_true_iff]
    unfold kRetaGroupSize at *
    omega
  · rw [List.getElem?_modify_ne _ _ hgroup] at he
    rw [h.masks group e he bit hb]
    unfold kRetaGroupSize at *
    omega

theorem setEntry_entries (hgroup : i.toNat / kRetaGroupSize < table.elems.length)
    (subscripts : List Nat) (j : Nat) :
    entryOf ⟨table.elems.modify (i.toNat / kRetaGroupSize) (setGroup retaSize nbRxQueues i),
      subscripts⟩ j = if j = i.toNat then some (queueOf retaSize nbRxQueues i)
        else entryOf table j := by
  unfold entryOf
  by_cases hsame : i.toNat / kRetaGroupSize = j / kRetaGroupSize
  · rw [← hsame, List.getElem?_modify_eq, List.getElem?_eq_getElem hgroup, Option.map_eq_map,
      Option.map_some, Option.bind_some, Option.bind_some, setGroup_reta]
    by_cases hj : j = i.toNat
    · rw [if_pos hj, if_pos (by rw [hj])]
    · have hne : j % kRetaGroupSize ≠ i.toNat % kRetaGroupSize := by
        unfold kRetaGroupSize at *
        omega
      rw [if_neg hj, if_neg hne]
  · rw [List.getElem?_modify_ne _ _ hsame, if_neg fun hj => hsame (by rw [hj])]

/-- One round of the loop. -/
theorem setEntry_filled (hi : i < retaSize) (h : Filled retaSize nbRxQueues i.toNat table) :
    Ends (setEntry retaSize nbRxQueues i) table
      (fun _ t => Filled retaSize nbRxQueues (i.toNat + 1) t) (fun _ _ => False) := by
  have hlt := UInt16.lt_iff_toNat_lt.mp hi
  have hgroup : i.toNat / kRetaGroupSize < table.elems.length := by
    rw [h.length, toNat_retaConfSize, kRetaGroupSize]
    omega
  refine Ends.of_ok setEntry_apply ⟨?_, ?_, ?_, ?_⟩
  · rw [List.length_modify, h.length]
  · refine Table.inBounds_concat.mpr ⟨h.inBounds.update hgroup _, ?_⟩
    rwa [List.length_modify]
  · intro group e he bit hb
    exact setEntry_masks h he hb
  · intro j hj
    rw [setEntry_entries hgroup]
    by_cases hji : j.toNat = i.toNat
    · rw [if_pos hji, UInt16.toNat_inj.mp hji]
    · rw [if_neg hji]
      exact h.entries j (by omega)

/-- The loop over the entries. -/
theorem fill_filled (retaSize nbRxQueues : UInt16) : ∃ table,
    countTo retaSize (setEntry retaSize nbRxQueues) 0 (newGroups (retaConfSize retaSize)) =
      .ok () table ∧ Filled retaSize nbRxQueues retaSize.toNat table := by
  have hstart := newGroups_filled retaSize nbRxQueues
  have hends := Ends.countTo (I := Filled retaSize nbRxQueues) (fun _ _ => setEntry_filled)
    UInt16.zero_le hstart
  obtain ⟨⟨⟩, table, hok, hfilled⟩ := hends.returns
  exact ⟨table, hok, hfilled⟩

end Loop

/-- The entries of a table that is filled, counted with natural numbers. -/
theorem Filled.entry {retaSize nbRxQueues : UInt16} {table : Table RetaEntry64}
    (h : Filled retaSize nbRxQueues retaSize.toNat table) {i : Nat} (hi : i < retaSize.toNat) :
    entryOf table i = some (if i < retaSize.toNat / nbRxQueues.toNat then 0 else 1) := by
  have hindex : (UInt16.ofNat i).toNat = i :=
    UInt16.toNat_ofNat_of_lt' (Nat.lt_trans hi retaSize.toNat_lt)
  have hentry := h.entries (UInt16.ofNat i) (by rwa [hindex])
  rwa [hindex, queueOf, hindex] at hentry

/-! ## The shares of the queues -/

theorem countP_range_lt {m n : Nat} (h : m ≤ n) :
    (List.range n).countP (fun i => decide (i < m)) = m := by
  obtain ⟨k, rfl⟩ := Nat.exists_eq_add_of_le h
  have hfirst : (List.range m).countP (fun i => decide (i < m)) = m := by
    rw [List.countP_eq_length.mpr fun i hi => by simpa using hi, List.length_range]
  have hrest : ((List.range k).map (m + ·)).countP (fun i => decide (i < m)) = 0 :=
    List.countP_eq_zero.mpr fun i hi => by
      obtain ⟨j, -, rfl⟩ := List.mem_map.mp hi
      simp
  rw [List.range_add, List.countP_append, hfirst, hrest, Nat.add_zero]

/-- Of two queues, the first has the first half of the table. -/
theorem shares_of_filled {retaSize : UInt16} {table : Table RetaEntry64}
    (h : Filled retaSize 2 retaSize.toNat table) :
    share table retaSize.toNat 0 = retaSize.toNat / 2 ∧
      share table retaSize.toNat 1 = retaSize.toNat - retaSize.toNat / 2 := by
  have hentry : ∀ i ∈ List.range retaSize.toNat, entryOf table i =
      some (if i < retaSize.toNat / 2 then 0 else 1) :=
    fun i hi => h.entry (List.mem_range.mp hi)
  have hzero : share table retaSize.toNat 0 = retaSize.toNat / 2 := by
    refine Eq.trans (List.countP_congr fun i hi => ?_)
      (countP_range_lt (Nat.div_le_self retaSize.toNat 2))
    rw [hentry i hi]
    by_cases hfirst : i < retaSize.toNat / 2 <;> simp [hfirst]
  refine ⟨hzero, ?_⟩
  have hsum := List.length_eq_countP_add_countP (l := List.range retaSize.toNat)
    (fun i => entryOf table i == some 0)
  have hone : share table retaSize.toNat 1 =
      (List.range retaSize.toNat).countP fun i => ¬ (entryOf table i == some 0) = true := by
    refine List.countP_congr fun i hi => ?_
    rw [hentry i hi]
    by_cases hfirst : i < retaSize.toNat / 2 <;> simp [hfirst]
  rw [List.length_range, ← hone] at hsum
  unfold share at *
  omega

/-! ## The table that is read back -/

section Readback

variable {size : UInt16} {table : Table RetaEntry64}

/-- A table of this size that was used within its bounds. -/
def Sized (size : UInt16) (table : Table RetaEntry64) : Prop :=
  table.elems.length = size.toNat ∧ table.InBounds

theorem ask_sized (size : UInt16) :
    ∃ table, countTo size askForGroup 0 (newGroups size) = .ok () table ∧ Sized size table := by
  have hstart : Sized size (newGroups size) :=
    ⟨by simp [newGroups, Table.ofSize], Table.inBounds_ofSize _ _⟩
  have hround : ∀ (i : UInt16) (t : Table RetaEntry64), i < size → Sized size t →
      Ends (askForGroup i) t (fun _ => Sized size) (fun _ _ => False) := by
    intro i t hi h
    have hlt := UInt16.lt_iff_toNat_lt.mp hi
    exact Ends.of_ok (modify_apply _ _)
      ⟨by rw [List.length_modify, h.1], h.2.update (by rwa [h.1]) _⟩
  have hends := Ends.countTo (I := fun _ => Sized size) hround UInt16.zero_le hstart
  obtain ⟨⟨⟩, table, hok, hsized⟩ := hends.returns
  exact ⟨table, hok, hsized⟩

theorem Sized.queried (h : Sized size table) (dev : EthDev) (portId : UInt16) :
    Sized size (queried dev portId table) := by
  have hlen : (DpdkMasterService.queried dev portId table).elems.length = table.elems.length :=
    List.length_mapIdx
  refine ⟨hlen.trans h.1, fun i hi => ?_⟩
  rw [hlen]
  exact h.2 i hi

theorem readSamples_apply (samples : List (Nat × Nat)) (table : Table RetaEntry64) :
    ∃ values, samples.mapM readSample table =
      .ok values ⟨table.elems, table.subscripts ++ samples.map fun sample => sample.1⟩ := by
  induction samples generalizing table with
  | nil => exact ⟨[], by simp⟩
  | cons sample samples ih =>
    obtain ⟨values, hrest⟩ := ih ⟨table.elems, table.subscripts ++ [sample.1]⟩
    have hfirst : readSample sample table =
        .ok (table.elems[sample.1]?.bind fun e => e.reta[sample.2]?)
          ⟨table.elems, table.subscripts ++ [sample.1]⟩ := rfl
    refine ⟨(table.elems[sample.1]?.bind fun e => e.reta[sample.2]?) :: values, ?_⟩
    rw [List.mapM_cons, bind_of_ok hfirst, bind_of_ok hrest, pure_apply, List.append_assoc]
    rfl

end Readback

/-! ## The configuration of a port -/

/-- What `init` is to do for a port with two receive queues: exactly the bits of the entries are set
in the groups, every entry has a queue, the queues have the same number of entries up to one, and
the vectors are only used at their groups. -/
structure Distributes (info : EthDevInfo) (tables : RetaTables) : Prop where
  groups : tables.retaConf.elems.length = (retaConfSize info.retaSize).toNat
  masks : ∀ group e, tables.retaConf.elems[group]? = some e → ∀ bit < kRetaGroupSize,
    (e.mask.toNat.testBit bit = true ↔ kRetaGroupSize * group + bit < info.retaSize.toNat)
  entries : ∀ i < info.retaSize.toNat,
    i / kRetaGroupSize < (retaConfSize info.retaSize).toNat ∧
      ∃ queue, entryOf tables.retaConf i = some queue ∧ queue < nbRxQueues info
  shares : share tables.retaConf info.retaSize.toNat 0 ≤
      share tables.retaConf info.retaSize.toNat 1 + 1 ∧
    share tables.retaConf info.retaSize.toNat 1 ≤ share tables.retaConf info.retaSize.toNat 0 + 1
  confInBounds : ∀ i ∈ tables.retaConf.subscripts, i < (retaConfSize info.retaSize).toNat
  readbackInBounds : ∀ i ∈ tables.retaReadback.subscripts, i < (retaConfSize info.retaSize).toNat

section Configure

variable {dev : EthDev} {portId : UInt16} {info : EthDevInfo}

theorem onRetaConf_of_ok {α : Type} {x : Prog (Table RetaEntry64) α} {a : α} {s : RetaTables}
    {t : Table RetaEntry64} (h : x s.retaConf = .ok a t) :
    onRetaConf x s = .ok a { s with retaConf := t } := zoom_of_ok h

theorem onRetaReadback_of_ok {α : Type} {x : Prog (Table RetaEntry64) α} {a : α} {s : RetaTables}
    {t : Table RetaEntry64} (h : x s.retaReadback = .ok a t) :
    onRetaReadback x s = .ok a { s with retaReadback := t } := zoom_of_ok h

theorem nbRxQueues_eq (hqueues : 2 ≤ info.maxRxQueues) : nbRxQueues info = 2 :=
  if_pos hqueues

theorem sample_le : ∀ i ∈ kSamples.map fun sample => sample.1, i ≤ 3 := by decide

/-- The samples are read. -/
def Samples (dev : EthDev) (portId : UInt16) : Prop :=
  dev.rssRetaUpdate portId = 0 ∧ dev.rssRetaQuery portId = 0 ∧ dev.logsInfo = true

/-- The tables that `init` leaves, whether it throws or not. -/
theorem configureReta_tables (hqueues : 2 ≤ info.maxRxQueues) : ∃ conf back,
    Filled info.retaSize 2 info.retaSize.toNat conf ∧
    (∀ i ∈ back.subscripts, i < (retaConfSize info.retaSize).toNat) ∧
    (Samples dev portId → after (configureReta dev portId info {}) =
      ⟨conf, ⟨back.elems, back.subscripts ++ kSamples.map fun sample => sample.1⟩⟩) ∧
    (¬ Samples dev portId → after (configureReta dev portId info {}) = ⟨conf, back⟩) := by
  obtain ⟨conf, hfill, hfilled⟩ := fill_filled info.retaSize 2
  obtain ⟨back, hask, hsized⟩ := ask_sized (retaConfSize info.retaSize)
  by_cases hupdate : dev.rssRetaUpdate portId = 0
  · have hqueried := hsized.queried dev portId
    refine ⟨conf, queried dev portId back, hfilled, fun i hi => hqueried.1 ▸ hqueried.2 i hi, ?_⟩
    have hrun : configureReta dev portId info {} =
        (if dev.rssRetaQuery portId == 0 && dev.logsInfo then
          onRetaReadback (kSamples.mapM readSample) >>= fun values => pure (some values)
        else pure none) ⟨conf, queried dev portId back⟩ := by
      rw [configureReta, nbRxQueues_eq hqueues, if_pos (by decide), bind_of_ok (modify_apply _ _),
        bind_of_ok (onRetaConf_of_ok hfill), require_bind, if_pos (by simpa using hupdate),
        bind_of_ok (modify_apply _ _), bind_of_ok (onRetaReadback_of_ok hask),
        bind_of_ok (modify_apply _ _)]
    rw [hrun]
    obtain ⟨values, hread⟩ := readSamples_apply kSamples (queried dev portId back)
    constructor
    · rintro ⟨-, hquery, hlogs⟩
      rw [if_pos (by simp [hquery, hlogs]), bind_of_ok (onRetaReadback_of_ok hread)]
      rfl
    · intro hno
      rw [if_neg fun hboth => hno ⟨hupdate, by simpa using hboth⟩]
      rfl
  · refine ⟨conf, .empty, hfilled, nofun, fun h => absurd h.1 hupdate, fun _ => ?_⟩
    rw [configureReta, nbRxQueues_eq hqueues, if_pos (by decide), bind_of_ok (modify_apply _ _),
      bind_of_ok (onRetaConf_of_ok hfill), require_bind, if_neg (by simpa using hupdate)]
    rfl

/-- What the loop leaves, whatever is read back. -/
theorem distributes_of_filled {conf back : Table RetaEntry64} (hqueues : 2 ≤ info.maxRxQueues)
    (h : Filled info.retaSize 2 info.retaSize.toNat conf)
    (hback : ∀ i ∈ back.subscripts, i < (retaConfSize info.retaSize).toNat) :
    Distributes info ⟨conf, back⟩ where
  groups := h.length
  masks := h.masks
  entries i hi := by
    refine ⟨?_, _, h.entry hi, ?_⟩
    · rw [toNat_retaConfSize, kRetaGroupSize]
      omega
    · rw [nbRxQueues_eq hqueues]
      split <;> decide
  shares := by
    obtain ⟨hzero, hone⟩ := shares_of_filled h
    rw [hzero, hone]
    omega
  confInBounds i hi := h.length ▸ h.inBounds i hi
  readbackInBounds := hback

/-- **The redirection table** of a port with two receive queues is built as it should be for every
size. The vectors are used within their bounds exactly if the table has more than three groups, or
the samples are not read. -/
theorem distributes_iff (dev : EthDev) (portId : UInt16) (info : EthDevInfo)
    (hqueues : 2 ≤ info.maxRxQueues) :
    Distributes info (after (configureReta dev portId info {})) ↔
      192 < info.retaSize.toNat ∨ dev.rssRetaUpdate portId ≠ 0 ∨ dev.rssRetaQuery portId ≠ 0 ∨
        dev.logsInfo = false := by
  obtain ⟨conf, back, hfilled, hback, hsampled, hunsampled⟩ :=
    @configureReta_tables dev portId info hqueues
  by_cases hsamples : Samples dev portId
  · rw [hsampled hsamples]
    obtain ⟨hupdate, hquery, hlogs⟩ := hsamples
    constructor
    · intro h
      have hlast := h.readbackInBounds 3 (by simp [kSamples])
      rw [toNat_retaConfSize] at hlast
      exact Or.inl (by omega)
    · rintro (hlarge | hno | hno | hno)
      · refine distributes_of_filled hqueues hfilled fun i hi => ?_
        obtain hi | hi := List.mem_append.mp hi
        · exact hback i hi
        · have hle := sample_le i hi
          rw [toNat_retaConfSize]
          omega
      · exact absurd hupdate hno
      · exact absurd hquery hno
      · rw [hlogs] at hno
        cases hno
  · rw [hunsampled hsamples]
    refine iff_of_true (distributes_of_filled hqueues hfilled hback) (Or.inr ?_)
    simpa only [Samples, not_and_or, Bool.not_eq_true] using hsamples

end Configure

/-- A card that takes every table and answers every query. -/
def answeringDev : EthDev := ⟨fun _ => 0, fun _ => 0, fun _ _ => .replicate kRetaGroupSize 0, true⟩

theorem table_of_512_distributed :
    Distributes ⟨16, 512⟩ (after (configureReta answeringDev 0 ⟨16, 512⟩ {})) :=
  (distributes_iff answeringDev 0 ⟨16, 512⟩ (by decide)).mpr (Or.inl (by decide))

/-- A table of 128 entries has two groups, and the last samples are read from the fourth. -/
theorem small_table_overrun :
    let tables := after (configureReta answeringDev 0 ⟨16, 128⟩ {})
    (retaConfSize 128).toNat = 2 ∧ 3 ∈ tables.retaReadback.subscripts ∧
      ¬ Distributes ⟨16, 128⟩ tables := by
  intro tables
  obtain ⟨conf, back, -, -, hsampled, -⟩ :=
    @configureReta_tables answeringDev 0 ⟨16, 128⟩ (by decide)
  have htables : tables = _ := hsampled ⟨rfl, rfl, rfl⟩
  have hread : 3 ∈ tables.retaReadback.subscripts := by
    rw [htables]
    simp [kSamples]
  exact ⟨by decide, hread, fun h => absurd (h.readbackInBounds 3 hread) (by decide)⟩

end WsGateway.Network.DpdkMasterService
