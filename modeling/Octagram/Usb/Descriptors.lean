/-
The walk over the configuration descriptor: when it stays inside the buffer, whatever the device
wrote there (`parseDescriptors_inBounds`), and what it finds in a buffer that holds well-formed
descriptors (`findInterruptEndpoints_serialise`). The loop is the fold of `Lib.Records` over the
records of the buffer, by induction on what is left of it (`parseDescriptors_eq`), so what one
record does (`parseStep`) decides both. After the descriptors of a device the walk stops at the
padding, or at one that was cut off.
-/
import Octagram.Lib.Records
import Octagram.Usb.Calls

namespace Octagram.Usb

open Octagram.Lib

/-! ## The walk as a fold over records -/

/-- `bLength` of the descriptor at the head of the stream; a stream of fewer than two bytes has none. -/
def descriptorSize : List UInt8 → Nat
  | b :: _ :: _ => b.toNat
  | _ => 0

/-- The body of the loop, on the slice from the current descriptor on. -/
def parseStep (st : CurrentInterface × List EndpointInfo) (t : List UInt8) :
    Option (CurrentInterface × List EndpointInfo) :=
  let byte (k : Nat) : Option Nat := t[k]?.map UInt8.toNat
  if byte 1 = some 4 then do
    let number ← byte 2
    let cls ← byte 5
    let protocol ← byte 7
    pure (⟨number, cls, protocol⟩, st.2)
  else if byte 1 = some 5 then do
    let address ← byte 2
    let attributes ← byte 3
    let lo ← byte 4
    let hi ← byte 5
    let interval ← byte 6
    let info : EndpointInfo :=
      ⟨address, attributes, lo + 256 * hi, interval, st.1.number, st.1.cls, st.1.protocol⟩
    pure (st.1, if address / 128 % 2 = 1 ∧ attributes % 4 = 3 then st.2 ++ [info] else st.2)
  else
    some st

theorem descriptorSize_short {t : List UInt8} (h : t.length < 2) : descriptorSize t = 0 := by
  match t, h with
  | [], _ => rfl
  | [_], _ => rfl

theorem descriptorSize_drop {buf : List UInt8} {i : Nat} (h : i + 2 ≤ buf.length) (hi : i < buf.length) :
    descriptorSize (buf.drop i) = (buf.get ⟨i, hi⟩).toNat := by
  rw [List.drop_eq_getElem_cons (by omega), List.drop_eq_getElem_cons (by omega)]
  rfl

/-- The guards of the loop say whether a whole record starts at `i`. -/
theorem whole_drop {buf : List UInt8} {i : Nat} (h : i + 2 ≤ buf.length) (hi : i < buf.length) :
    Whole descriptorSize (buf.drop i) ↔
      ¬ ((buf.get ⟨i, hi⟩).toNat = 0 ∨ i + (buf.get ⟨i, hi⟩).toNat > buf.length) := by
  unfold Whole
  rw [descriptorSize_drop h hi, List.length_drop]
  omega

theorem two_le_of_whole {t : List UInt8} (h : Whole descriptorSize t) : 2 ≤ t.length := by
  by_contra hlt
  have hpos := h.1
  rw [descriptorSize_short (by omega)] at hpos
  exact absurd hpos (Nat.lt_irrefl 0)

/-- The loop stops where no whole record starts. -/
theorem parseDescriptors_stop {buf : List UInt8} {i : Nat} (h : ¬ Whole descriptorSize (buf.drop i))
    (current : CurrentInterface) (found : List EndpointInfo) : parseDescriptors buf i current found = some found := by
  rw [parseDescriptors]
  by_cases hi : i + 2 ≤ buf.length
  · rw [dif_pos hi]
    exact dif_pos (by_contra fun hb => h ((whole_drop hi (Nat.lt_of_succ_lt hi)).2 hb))
  · rw [dif_neg hi]

/-- One pass through the loop. -/
theorem parseDescriptors_step {buf : List UInt8} {i : Nat} (h : Whole descriptorSize (buf.drop i))
    (st : CurrentInterface × List EndpointInfo) :
    parseDescriptors buf i st.1 st.2 =
      parseStep st (buf.drop i) >>= fun st' => parseDescriptors buf (i + descriptorSize (buf.drop i)) st'.1 st'.2 := by
  have hi : i + 2 ≤ buf.length := by
    have := two_le_of_whole h
    rw [List.length_drop] at this
    omega
  have htype : buf[i + 1]?.map UInt8.toNat = some (buf.get ⟨i + 1, by omega⟩).toNat := by
    rw [List.getElem?_eq_getElem (by omega)]
    rfl
  rw [parseDescriptors, dif_pos hi, descriptorSize_drop hi (Nat.lt_of_succ_lt hi)]
  simp only [parseStep, List.getElem?_drop, htype, Option.some.injEq]
  rw [dif_neg ((whole_drop hi (Nat.lt_of_succ_lt hi)).1 h)]
  split
  · simp only [Option.bind_eq_bind, Option.bind_assoc, Option.pure_def, Option.bind_some]
  · split
    · simp only [Option.bind_eq_bind, Option.bind_assoc, Option.pure_def, Option.bind_some]
    · rfl

/-- The loop walks from record to record. -/
theorem parseDescriptors_eq (buf : List UInt8) (i : Nat) (st : CurrentInterface × List EndpointInfo) :
    parseDescriptors buf i st.1 st.2 = ((records descriptorSize (buf.drop i)).foldlM parseStep st).map Prod.snd := by
  induction hn : buf.length - i using Nat.strong_induction_on generalizing i st with
  | _ n ih =>
    by_cases h : Whole descriptorSize (buf.drop i)
    · have hlt : buf.length - (i + descriptorSize (buf.drop i)) < n := by
        obtain ⟨hpos, hle⟩ := h
        rw [List.length_drop] at hle
        omega
      rw [parseDescriptors_step h, records_of_whole h, List.foldlM_cons, List.drop_drop]
      cases parseStep st (buf.drop i) with
      | none => rfl
      | some st' => exact ih _ hlt _ st' rfl
    · rw [parseDescriptors_stop h, records_of_not_whole h]
      rfl

/-! ## Inside the buffer -/

/-- The slice from a descriptor on is long enough for the fields that the loop reads of its type. -/
def HasRoom (t : List UInt8) : Prop := (t[1]? = some 4 → 8 ≤ t.length) ∧ (t[1]? = some 5 → 7 ≤ t.length)

instance (t : List UInt8) : Decidable (HasRoom t) := inferInstanceAs (Decidable (_ ∧ _))

theorem type_eq {o : Option UInt8} {n : Nat} (hn : n < 256) :
    o.map UInt8.toNat = some n ↔ o = some (UInt8.ofNat n) := by
  cases o with
  | none => simp
  | some b =>
    simp only [Option.map_some, Option.some.injEq]
    rw [← UInt8.toNat_inj, UInt8.toNat_ofNat', Nat.mod_eq_of_lt hn]

/-- A pass through the loop ends, instead of in an index outside the slice, exactly with room for the
last byte that it reads. -/
theorem parseStep_isSome (st : CurrentInterface × List EndpointInfo) (t : List UInt8) :
    (parseStep st t).isSome ↔ HasRoom t := by
  unfold parseStep
  simp only [type_eq (n := 4) (by decide), type_eq (n := 5) (by decide), UInt8.reduceOfNat]
  by_cases h4 : t[1]? = some 4
  · have hroom : HasRoom t ↔ 8 ≤ t.length := by simp [HasRoom, h4]
    rw [if_pos h4, hroom]
    by_cases hl : 8 ≤ t.length
    · simp [List.getElem?_eq_getElem (show 2 < t.length by omega),
        List.getElem?_eq_getElem (show 5 < t.length by omega),
        List.getElem?_eq_getElem (show 7 < t.length by omega), hl]
    · simp [List.getElem?_eq_none (show t.length ≤ 7 by omega), hl]
  · rw [if_neg h4]
    by_cases h5 : t[1]? = some 5
    · have hroom : HasRoom t ↔ 7 ≤ t.length := by simp [HasRoom, h5]
      rw [if_pos h5, hroom]
      by_cases hl : 7 ≤ t.length
      · simp [List.getElem?_eq_getElem (show 2 < t.length by omega),
          List.getElem?_eq_getElem (show 3 < t.length by omega),
          List.getElem?_eq_getElem (show 4 < t.length by omega), List.getElem?_eq_getElem (show 5 < t.length by omega),
          List.getElem?_eq_getElem (show 6 < t.length by omega), hl]
      · simp [List.getElem?_eq_none (show t.length ≤ 6 by omega), hl]
    · rw [if_neg h5]
      simp [HasRoom, h4, h5]

/-- The walk over any device data makes at most one step for each byte received, and stays inside the
slice exactly when each descriptor it comes to has room for the fields of its type. -/
theorem parseDescriptors_inBounds (content : List UInt8) (actualLen : Nat) :
    (records descriptorSize (content.take actualLen)).length ≤ actualLen ∧
      ((parseDescriptors (content.take actualLen) 0 ⟨0, 0, 0⟩ []).isSome ↔
        ∀ t ∈ records descriptorSize (content.take actualLen), HasRoom t) := by
  constructor
  · refine (records_length_le _).trans ?_
    rw [List.length_take]
    exact Nat.min_le_left _ _
  · have he := parseDescriptors_eq (content.take actualLen) 0 (⟨0, 0, 0⟩, [])
    rw [List.drop_zero] at he
    rw [he, Option.isSome_map]
    exact foldlM_isSome parseStep_isSome _ _

/-- A configuration descriptor that ends, after its own nine bytes, with an interface descriptor of two. -/
def cutDescriptor : List UInt8 := [9, 2, 11, 0, 1, 1, 0, 0x80, 50, 2, 4]

/-- Device data can lead the walk outside the slice: a list that ends in an interface descriptor of two bytes does. -/
theorem parseDescriptors_leaves : ¬ ∀ content : List UInt8, content.length = 256 → ∀ actualLen ≤ 256,
    (parseDescriptors (content.take actualLen) 0 ⟨0, 0, 0⟩ []).isSome := by
  intro h
  have hcut := h (cutDescriptor ++ List.replicate 245 0)
    (by rw [List.length_append, List.length_replicate]; rfl) 11 (by decide)
  rw [List.take_append_of_le_length (by decide)] at hcut
  -- the walk goes over the first nine bytes and looks for the fields of an interface behind the last two
  simp [cutDescriptor, parseDescriptors] at hcut

/-! ## Well-formed descriptors -/

/-- A descriptor after its `bLength`: the type and the other bytes, as many as its type requires. -/
structure Descriptor where
  type : UInt8
  body : List UInt8
  size_lt : body.length + 2 < 256
  interface_le : type = 4 → 7 ≤ body.length
  endpoint_le : type = 5 → 5 ≤ body.length

namespace Descriptor

/-- The bytes on the wire. -/
def bytes (d : Descriptor) : List UInt8 := UInt8.ofNat (d.body.length + 2) :: d.type :: d.body

/-- The byte at an offset from the start of the descriptor. -/
def byte (d : Descriptor) (k : Nat) : Nat := (d.bytes.getD k 0).toNat

/-- An endpoint descriptor with the IN bit and the transfer type Interrupt. -/
def InterruptIn (d : Descriptor) : Prop := d.type = 5 ∧ d.byte 2 / 128 % 2 = 1 ∧ d.byte 3 % 4 = 3

instance (d : Descriptor) : Decidable d.InterruptIn := inferInstanceAs (Decidable (_ ∧ _ ∧ _))

/-- The endpoint it describes, on the interface `cur`: bEndpointAddress, bmAttributes, wMaxPacketSize
(little-endian) and bInterval. -/
def endpointInfo (d : Descriptor) (cur : CurrentInterface) : EndpointInfo :=
  ⟨d.byte 2, d.byte 3, d.byte 4 + 256 * d.byte 5, d.byte 6, cur.number, cur.cls, cur.protocol⟩

/-- What a pass through the loop makes of it. -/
def step (d : Descriptor) (st : CurrentInterface × List EndpointInfo) : CurrentInterface × List EndpointInfo :=
  if d.type = 4 then (⟨d.byte 2, d.byte 5, d.byte 7⟩, st.2)
  else if d.InterruptIn then (st.1, st.2 ++ [d.endpointInfo st.1])
  else st

@[simp] theorem length_bytes (d : Descriptor) : d.bytes.length = d.body.length + 2 := rfl

theorem sized (d : Descriptor) : Sized descriptorSize d.bytes where
  ne_nil := List.cons_ne_nil _ _
  append rest := by
    show (UInt8.ofNat (d.body.length + 2)).toNat = d.body.length + 2
    rw [UInt8.toNat_ofNat', Nat.mod_eq_of_lt d.size_lt]
  cut n hn := by
    rintro ⟨hpos, hle⟩
    match n with
    | 0 => exact absurd hpos (Nat.lt_irrefl 0)
    | 1 => exact absurd hpos (Nat.lt_irrefl 0)
    | n + 2 =>
      -- `bLength` is still there and says more than is left
      have hs : descriptorSize (d.bytes.take (n + 2)) = d.body.length + 2 := by
        show (UInt8.ofNat (d.body.length + 2)).toNat = d.body.length + 2
        rw [UInt8.toNat_ofNat', Nat.mod_eq_of_lt d.size_lt]
      rw [hs, List.length_take] at hle
      rw [length_bytes] at hn
      omega

theorem byte_append (d : Descriptor) (rest : List UInt8) {k : Nat} (hk : k < d.body.length + 2) :
    ((d.bytes ++ rest)[k]?).map UInt8.toNat = some (d.byte k) := by
  have hk' : k < d.bytes.length := hk
  rw [List.getElem?_append_left hk', byte, List.getD_eq_getElem?_getD, List.getElem?_eq_getElem hk']
  rfl

/-- A pass through the loop reads nothing behind the descriptor. -/
theorem parseStep_bytes (d : Descriptor) (rest : List UInt8) (st : CurrentInterface × List EndpointInfo) :
    parseStep st (d.bytes ++ rest) = some (d.step st) := by
  have htype : d.byte 1 = d.type.toNat := rfl
  have h4 : d.type.toNat = 4 ↔ d.type = 4 := UInt8.toNat_inj (b := 4)
  have h5 : d.type.toNat = 5 ↔ d.type = 5 := UInt8.toNat_inj (b := 5)
  unfold parseStep step
  simp only [d.byte_append rest (k := 1) (by omega), htype, Option.some.injEq, h4, h5]
  by_cases ht4 : d.type = 4
  · have hlen := d.interface_le ht4
    rw [if_pos ht4, if_pos ht4, d.byte_append rest (by omega), d.byte_append rest (by omega),
      d.byte_append rest (by omega)]
    rfl
  · rw [if_neg ht4, if_neg ht4]
    by_cases ht5 : d.type = 5
    · have hlen := d.endpoint_le ht5
      rw [if_pos ht5, d.byte_append rest (by omega), d.byte_append rest (by omega),
        d.byte_append rest (by omega), d.byte_append rest (by omega), d.byte_append rest (by omega)]
      simp only [Option.bind_eq_bind, Option.bind_some, Option.pure_def, Option.some.injEq]
      by_cases hin : d.InterruptIn
      · rw [if_pos hin, if_pos hin.2]
        rfl
      · rw [if_neg hin, if_neg (fun h => hin ⟨ht5, h⟩)]
    · have hin : ¬ d.InterruptIn := fun h => ht5 h.1
      rw [if_neg ht5, if_neg hin]

end Descriptor

/-- Descriptors one after the other. -/
def serialise (ds : List Descriptor) : List UInt8 := (ds.map Descriptor.bytes).flatten

/-- The zeroed 256-byte buffer after the descriptors were written to it. -/
def descriptorBuffer (ds : List Descriptor) : List UInt8 := (serialise ds ++ List.replicate 256 0).take 256

/-- The interface that what follows the descriptors `before` belongs to. -/
def nearestInterface (before : List Descriptor) : CurrentInterface :=
  match before.reverse.find? (·.type = 4) with
  | some d => ⟨d.byte 2, d.byte 5, d.byte 7⟩
  | none => ⟨0, 0, 0⟩

/-- The endpoint that descriptor number `k` stands for, if it is an interrupt IN endpoint. -/
def endpointAt (ds : List Descriptor) (k : Nat) : Option EndpointInfo := do
  let d ← ds[k]?
  if d.InterruptIn then some (d.endpointInfo (nearestInterface (ds.take k))) else none

/-- The interrupt IN endpoints whose descriptors end within the first `n` bytes, in order. -/
def interruptEndpoints (n : Nat) (ds : List Descriptor) : List EndpointInfo :=
  ((List.range ds.length).filter fun k => (serialise (ds.take (k + 1))).length ≤ n).filterMap (endpointAt ds)

/-! ### The walk over descriptors -/

theorem nearestInterface_snoc (ds : List Descriptor) (d : Descriptor) :
    nearestInterface (ds ++ [d]) =
      if d.type = 4 then ⟨d.byte 2, d.byte 5, d.byte 7⟩ else nearestInterface ds := by
  unfold nearestInterface
  rw [List.reverse_append, List.reverse_singleton, List.singleton_append, List.find?_cons]
  by_cases h : d.type = 4 <;> simp [h]

theorem endpointAt_of_lt {ds : List Descriptor} {k : Nat} (hk : k < ds.length) (more : List Descriptor) :
    endpointAt (ds ++ more) k = endpointAt ds k := by
  unfold endpointAt
  rw [List.getElem?_append_left hk, List.take_append_of_le_length (Nat.le_of_lt hk)]

/-- The state of the loop after descriptors: the interface read last, and the endpoints so far. -/
theorem foldlM_bytes (ds : List Descriptor) :
    (ds.map Descriptor.bytes).foldlM parseStep (⟨0, 0, 0⟩, []) =
      some (nearestInterface ds, (List.range ds.length).filterMap (endpointAt ds)) := by
  -- from the right, since what an endpoint belongs to was read before it
  induction ds using List.reverseRecOn with
  | nil => rfl
  | append_singleton ds d ih =>
    have hstep := d.parseStep_bytes [] (nearestInterface ds, (List.range ds.length).filterMap (endpointAt ds))
    have hbefore : (List.range ds.length).filterMap (endpointAt (ds ++ [d])) =
        (List.range ds.length).filterMap (endpointAt ds) :=
      List.filterMap_congr fun k hk => endpointAt_of_lt (List.mem_range.1 hk) [d]
    have hlast : endpointAt (ds ++ [d]) ds.length =
        if d.InterruptIn then some (d.endpointInfo (nearestInterface ds)) else none := by
      unfold endpointAt
      rw [List.getElem?_concat_length, List.take_left]
      rfl
    rw [List.append_nil] at hstep
    rw [List.map_append, List.foldlM_append, ih, List.length_append, List.length_singleton, List.range_succ,
      List.filterMap_append, hbefore, nearestInterface_snoc]
    simp only [Option.bind_eq_bind, Option.bind_some, List.map_singleton, List.foldlM_cons, List.foldlM_nil, hstep,
      Option.pure_def, List.filterMap_cons, List.filterMap_nil, hlast, Option.some.injEq]
    unfold Descriptor.step
    by_cases h4 : d.type = 4
    · have hin : ¬ d.InterruptIn := fun h => absurd (h4.symm.trans h.1) (by decide)
      simp [h4, hin]
    · by_cases hin : d.InterruptIn
      · simp [h4, hin]
      · simp [h4, hin]

/-- The padding never looks like a descriptor. -/
theorem not_whole_zeros (n : Nat) : ¬ Whole descriptorSize (List.replicate n 0) := by
  rintro ⟨hpos, -⟩
  match n with
  | 0 => exact absurd hpos (Nat.lt_irrefl 0)
  | 1 => exact absurd hpos (Nat.lt_irrefl 0)
  | n + 2 => exact absurd hpos (Nat.lt_irrefl 0)

theorem serialise_take (ds : List Descriptor) (k : Nat) :
    serialise (ds.take k) = ((ds.map Descriptor.bytes).take k).flatten := by
  rw [serialise, List.map_take]

/-- Where the first `m` descriptors are those that end within the first `n` bytes. -/
theorem interruptEndpoints_eq {n m : Nat} {ds : List Descriptor} (hm : m ≤ ds.length)
    (h : ∀ k < ds.length, (serialise (ds.take (k + 1))).length ≤ n ↔ k < m) :
    interruptEndpoints n ds = (List.range m).filterMap (endpointAt (ds.take m)) := by
  have hfilter : (List.range ds.length).filter (fun k => (serialise (ds.take (k + 1))).length ≤ n) = List.range m := by
    have hcongr : (List.range ds.length).filter (fun k => (serialise (ds.take (k + 1))).length ≤ n) =
        (List.range ds.length).filter (· < m) :=
      List.filter_congr fun k hk => decide_eq_decide.2 (h k (List.mem_range.1 hk))
    have hsplit : ds.length = m + (ds.length - m) := by omega
    rw [hcongr, hsplit, List.range_add, List.filter_append, List.filter_eq_self.2 (fun k hk => by simpa using hk),
      List.filter_eq_nil_iff.2, List.append_nil]
    intro k hk
    obtain ⟨j, -, rfl⟩ := List.mem_map.1 hk
    simp
  rw [interruptEndpoints, hfilter]
  refine List.filterMap_congr fun k hk => ?_
  have hlt : k < (ds.take m).length := by
    rw [List.length_take]
    exact lt_min (List.mem_range.1 hk) (Nat.lt_of_lt_of_le (List.mem_range.1 hk) hm)
  have := endpointAt_of_lt hlt (ds.drop m)
  rwa [List.take_append_drop] at this

/-- The walk over a buffer with descriptors, of which at least what was written was received. -/
theorem parseDescriptors_serialise {ds : List Descriptor} {actualLen : Nat}
    (hwritten : min (serialise ds).length 256 ≤ actualLen) (hlen : actualLen ≤ 256) :
    parseDescriptors ((descriptorBuffer ds).take actualLen) 0 ⟨0, 0, 0⟩ [] = some (interruptEndpoints 256 ds) := by
  -- `m` descriptors lie wholly within what was received
  obtain ⟨m, hm, hfit, hk⟩ := fitting_prefix actualLen (ds.map Descriptor.bytes)
  rw [List.length_map] at hm hk
  have hsized : ∀ r ∈ ds.map Descriptor.bytes, Sized descriptorSize r := by
    rintro r hr
    obtain ⟨d, -, rfl⟩ := List.mem_map.1 hr
    exact d.sized
  have hlocal : ∀ r ∈ ds.map Descriptor.bytes, ∀ rest st, parseStep st (r ++ rest) = parseStep st r := by
    rintro r hr rest st
    obtain ⟨d, -, rfl⟩ := List.mem_map.1 hr
    have hnil := d.parseStep_bytes [] st
    rw [List.append_nil] at hnil
    rw [d.parseStep_bytes, hnil]
  have hpad : ∀ k, ¬ Whole descriptorSize ((List.replicate 256 0).take k) := by
    intro k
    rw [List.take_replicate]
    exact not_whole_zeros _
  have hwalk := parseDescriptors_eq ((descriptorBuffer ds).take actualLen) 0 (⟨0, 0, 0⟩, [])
  rw [List.drop_zero, descriptorBuffer, List.take_take, Nat.min_eq_left hlen, serialise,
    foldlM_records hsized hpad hlocal, hfit, ← List.map_take, foldlM_bytes] at hwalk
  rw [descriptorBuffer, List.take_take, Nat.min_eq_left hlen, serialise, hwalk, Option.map_some,
    List.length_take, Nat.min_eq_left hm, interruptEndpoints_eq hm]
  -- a descriptor that ends within the buffer ends within what was received
  intro k hlt
  rw [← hk k hlt, ← serialise_take]
  have htotal : (serialise (ds.take (k + 1))).length ≤ (serialise ds).length := by
    conv_rhs => rw [← List.take_append_drop (k + 1) ds]
    rw [serialise, serialise, List.map_append, List.flatten_append, List.length_append]
    exact Nat.le_add_right _ _
  omega

/-! ## The function -/

/-- `get_configuration_descriptor_and_find_interrupt_endpoints` from where `control_transfer_in` returned. -/
def findInterruptEndpoints (bufVirt actualLen : Nat) : KProg (Except String (List EndpointInfo)) := do
  let buf ← readBytes bufVirt actualLen
  match parseDescriptors buf 0 ⟨0, 0, 0⟩ [] with
  | none => panic "index out of bounds"
  | some found =>
    pure (if found.isEmpty then .error "Tidak ketemu Interrupt IN endpoint di Configuration Descriptor"
      else .ok found)

theorem getInterruptEndpoints_eq (slotId : Nat) :
    getInterruptEndpoints slotId = (do
      let bufVirt ← boxNew (.bytes 256)
      match ← virtToPhys bufVirt with
      | none => pure (.error "gagal translate buffer config descriptor")
      | some bufPhys =>
        match ← controlTransferIn slotId 0x80 0x06 0x200 0 bufPhys 256 with
        | .error e => pure (.error e)
        | .ok actualLen => findInterruptEndpoints bufVirt actualLen) := rfl

/-- What the buffer at `bufVirt` holds. -/
def Kernel.buffer (s : Kernel) (bufVirt len : Nat) : List UInt8 := (List.range len).map fun i => s.ram (bufVirt + i)

theorem Kernel.buffer_take (s : Kernel) (bufVirt : Nat) {len n : Nat} (h : n ≤ len) :
    (s.buffer bufVirt len).take n = s.buffer bufVirt n := by
  rw [Kernel.buffer, ← List.map_take, List.take_range, Nat.min_eq_left h]
  rfl

theorem Kernel.buffer_setBytes (s : Kernel) (bufVirt : Nat) (l : List UInt8) :
    { s with ram := s.ram.setBytes bufVirt l }.buffer bufVirt l.length = l := by
  refine List.ext_getElem (by simp [Kernel.buffer]) fun i _ hi => ?_
  simp [Kernel.buffer, Ram.setBytes, hi]

/-- The walk returns, in order, the interrupt IN endpoints whose descriptors lie within the buffer,
whatever was received behind them, and an error where there is none. -/
theorem findInterruptEndpoints_serialise (ds : List Descriptor) (s : Kernel) (bufVirt actualLen : Nat)
    (hbuf : s.buffer bufVirt 256 = descriptorBuffer ds) (hwritten : min (serialise ds).length 256 ≤ actualLen)
    (hlen : actualLen ≤ 256) :
    runToEnd (findInterruptEndpoints bufVirt actualLen) s =
      some (if interruptEndpoints 256 ds = [] then
          .error "Tidak ketemu Interrupt IN endpoint di Configuration Descriptor"
        else .ok (interruptEndpoints 256 ds), s) := by
  have hslice : (List.range actualLen).map (fun i => s.ram (bufVirt + i)) = (descriptorBuffer ds).take actualLen := by
    rw [← hbuf, s.buffer_take bufVirt hlen]
    rfl
  have hexec : s.exec (.readBytes bufVirt actualLen) = some ((descriptorBuffer ds).take actualLen, s) := by
    rw [← hslice]
    rfl
  rw [findInterruptEndpoints, Prog.call_bind, runToEnd, hexec]
  simp only [parseDescriptors_serialise hwritten hlen, Prog.pure_eq, runToEnd, List.isEmpty_iff]

/-- A keyboard with one interface and one endpoint, after the header of its configuration. -/
def keyboardDescriptors : List Descriptor :=
  [⟨2, [25, 0, 1, 1, 0, 0xA0, 50], by decide, by decide, by decide⟩,
   ⟨4, [0, 0, 1, 3, 1, 1, 0], by decide, by decide, by decide⟩,
   ⟨5, [0x81, 3, 8, 0, 10], by decide, by decide, by decide⟩]

theorem findInterruptEndpoints_keyboard :
    ∃ s : Kernel, s.buffer 0x1000 256 = descriptorBuffer keyboardDescriptors ∧
      runToEnd (findInterruptEndpoints 0x1000 25) s = some (.ok [⟨0x81, 3, 8, 10, 0, 3, 1⟩], s) := by
  have hlen : (descriptorBuffer keyboardDescriptors).length = 256 := by
    rw [descriptorBuffer, List.length_take, List.length_append, List.length_replicate, Nat.min_eq_left (by omega)]
  have hbuf := Kernel.buffer_setBytes (Kernel.start 0 fun _ => ⟨false, false, 0, 0⟩) 0x1000
    (descriptorBuffer keyboardDescriptors)
  rw [hlen] at hbuf
  have hfound : interruptEndpoints 256 keyboardDescriptors = [⟨0x81, 3, 8, 10, 0, 3, 1⟩] := by decide
  have hs := findInterruptEndpoints_serialise keyboardDescriptors _ 0x1000 25 hbuf (by decide) (by decide)
  rw [hfound, if_neg (List.cons_ne_nil _ _)] at hs
  exact ⟨_, hbuf, hs⟩

end Octagram.Usb
