import Mathlib.Data.List.GetD
import UsbFloppy.Kernel.UnitAttention
import UsbFloppy.Lib.Bytes

/-! The wrappers of the Bulk-only transport as bytes, and which of those that reach the gadget
are commands. -/

namespace UsbFloppy.Kernel
open Bytes

def US_BULK_CB_WRAP_LEN : ℕ := 31
def US_BULK_CB_SIGN : UInt32 := 0x43425355
def US_BULK_CS_WRAP_LEN : ℕ := 13
def US_BULK_CS_SIGN : UInt32 := 0x53425355
def US_BULK_FLAG_IN : UInt8 := 0x80
def MAX_COMMAND_SIZE : ℕ := 16
def FSG_MAX_LUNS : ℕ := 16

/-- `struct bulk_cb_wrap`. -/
structure BulkCbWrap where
  signature : UInt32
  tag : UInt32
  dataTransferLength : UInt32
  flags : UInt8
  lun : UInt8
  length : UInt8
  cdb : Fin 16 → UInt8

def u32Bytes (x : UInt32) : List UInt8 := leBytes 4 x.toNat

def u32At (b : List UInt8) (start : ℕ) : UInt32 := UInt32.ofNat (ofLe ((b.drop start).take 4))

def BulkCbWrap.toBytes (cbw : BulkCbWrap) : List UInt8 :=
  u32Bytes cbw.signature ++ u32Bytes cbw.tag ++ u32Bytes cbw.dataTransferLength ++
    [cbw.flags, cbw.lun, cbw.length] ++ List.ofFn cbw.cdb

def BulkCbWrap.ofBytes (b : List UInt8) : BulkCbWrap where
  signature := u32At b 0
  tag := u32At b 4
  dataTransferLength := u32At b 8
  flags := b.getD 12 0
  lun := b.getD 13 0
  length := b.getD 14 0
  cdb i := b.getD (15 + i) 0

/-- A bulk-out request that came back: its status, and the bytes there are. -/
structure OutPacket where
  status : ℤ
  bytes : List UInt8

/-- What `received_cbw` does with a packet: nothing; a wedge of the bulk-in endpoint, after
which all packets are ignored; a stall of the endpoints, if that is allowed; or it saves a
command for one of the LUNs. -/
inductive CbwOutcome
  | ignored
  | invalid
  | meaningless
  | command (number : ℕ) (cmd : HostCommand) (tag : UInt32)

/-- The command in a wrapper, over what is left of the one before. -/
def BulkCbWrap.command (cbw : BulkCbWrap) (cmnd : ℕ → UInt8) : HostCommand where
  cmnd i := if h : i < cbw.length.toNat ∧ i < 16 then cbw.cdb ⟨i, h.2⟩ else cmnd i
  cmndSize := cbw.length.toNat
  dataDir :=
    if cbw.dataTransferLength = 0 then .none
    else if cbw.flags &&& US_BULK_FLAG_IN ≠ 0 then .toHost
    else .fromHost
  dataSize := cbw.dataTransferLength

/-- `received_cbw`. Of `common->cmnd` only the bytes of the command are overwritten. -/
def receiveCbw (ignoreBulkOut : Bool) (cmnd : ℕ → UInt8) (p : OutPacket) : CbwOutcome :=
  let cbw := BulkCbWrap.ofBytes p.bytes
  if p.status ≠ 0 ∨ ignoreBulkOut then .ignored
  else if p.bytes.length ≠ US_BULK_CB_WRAP_LEN ∨ cbw.signature ≠ US_BULK_CB_SIGN then .invalid
  else if cbw.lun.toNat ≥ FSG_MAX_LUNS ∨ cbw.flags &&& ~~~US_BULK_FLAG_IN ≠ 0 ∨ cbw.length ≤ 0 ∨
      cbw.length.toNat > MAX_COMMAND_SIZE then .meaningless
  else
    .command cbw.lun.toNat (cbw.command cmnd) cbw.tag

/-! ### Round trips -/

theorem u32Bytes_length (x : UInt32) : (u32Bytes x).length = 4 := length_leBytes 4 x.toNat

theorem ofLe_u32Bytes (x : UInt32) : UInt32.ofNat (ofLe (u32Bytes x)) = x := by
  rw [u32Bytes, ofLe_leBytes x.toNat_lt, UInt32.ofNat_toNat]

theorem u32At_append (before : List UInt8) (x : UInt32) (behind : List UInt8) :
    u32At (before ++ (u32Bytes x ++ behind)) before.length = x := by
  rw [u32At, List.drop_left, List.take_left' (u32Bytes_length x), ofLe_u32Bytes]

theorem u32Bytes_u32At {b : List UInt8} {start : ℕ} (h : start + 4 ≤ b.length) :
    u32Bytes (u32At b start) = (b.drop start).take 4 := by
  have hlength : ((b.drop start).take 4).length = 4 := by
    rw [List.length_take, List.length_drop]
    omega
  have hless := ofLe_lt ((b.drop start).take 4)
  rw [hlength] at hless
  have hround := leBytes_ofLe ((b.drop start).take 4)
  rw [hlength] at hround
  rw [u32Bytes, u32At, UInt32.toNat_ofNat_of_lt' hless, hround]

theorem BulkCbWrap.length_toBytes (cbw : BulkCbWrap) :
    cbw.toBytes.length = US_BULK_CB_WRAP_LEN := by
  simp only [BulkCbWrap.toBytes, List.length_append, u32Bytes_length, List.length_ofFn,
    List.length_cons, List.length_nil]
  rfl

theorem ofBytes_toBytes (cbw : BulkCbWrap) : BulkCbWrap.ofBytes cbw.toBytes = cbw := by
  obtain ⟨signature, tag, dataTransferLength, flags, lun, length, cdb⟩ := cbw
  have hsignature : u32At (BulkCbWrap.toBytes
      ⟨signature, tag, dataTransferLength, flags, lun, length, cdb⟩) 0 = signature := by
    simp only [BulkCbWrap.toBytes, List.append_assoc]
    exact u32At_append [] signature _
  have htag : u32At (BulkCbWrap.toBytes
      ⟨signature, tag, dataTransferLength, flags, lun, length, cdb⟩) 4 = tag := by
    simp only [BulkCbWrap.toBytes, List.append_assoc]
    exact u32At_append (u32Bytes signature) tag _
  have hdata : u32At (BulkCbWrap.toBytes
      ⟨signature, tag, dataTransferLength, flags, lun, length, cdb⟩) 8 = dataTransferLength := by
    simp only [BulkCbWrap.toBytes, List.append_assoc]
    rw [← List.append_assoc]
    exact u32At_append (u32Bytes signature ++ u32Bytes tag) dataTransferLength _
  have hcdb (i : Fin 16) : (BulkCbWrap.toBytes
      ⟨signature, tag, dataTransferLength, flags, lun, length, cdb⟩).getD (15 + i) 0 = cdb i := by
    have hhead : (u32Bytes signature ++ u32Bytes tag ++ u32Bytes dataTransferLength ++
        [flags, lun, length]).length = 15 := by
      simp only [List.length_append, u32Bytes_length, List.length_cons, List.length_nil]
    rw [BulkCbWrap.toBytes, List.getD_append_right _ _ _ _ (by rw [hhead]; omega), hhead,
      Nat.add_sub_cancel_left, List.getD_eq_getElem _ _ (by rw [List.length_ofFn]; exact i.isLt),
      List.getElem_ofFn]
  simp only [BulkCbWrap.ofBytes, hsignature, htag, hdata, hcdb]
  rfl

theorem toBytes_ofBytes {b : List UInt8} (h : b.length = US_BULK_CB_WRAP_LEN) :
    (BulkCbWrap.ofBytes b).toBytes = b := by
  have hlength : b.length = 31 := h
  have hbytes : [b.getD 12 0, b.getD 13 0, b.getD 14 0] = (b.drop 12).take 3 := by
    rw [List.drop_eq_getElem_cons (by omega), List.drop_eq_getElem_cons (by omega),
      List.drop_eq_getElem_cons (by omega), List.getD_eq_getElem b 0 (by omega),
      List.getD_eq_getElem b 0 (by omega), List.getD_eq_getElem b 0 (by omega)]
    rfl
  have hcdb : List.ofFn (fun i : Fin 16 => b.getD (15 + i) 0) = b.drop 15 := by
    refine List.ext_getElem (by rw [List.length_ofFn, List.length_drop, hlength]) fun i hi _ => ?_
    rw [List.length_ofFn] at hi
    rw [List.getElem_ofFn, List.getElem_drop, List.getD_eq_getElem b 0 (by omega)]
  simp only [BulkCbWrap.toBytes, BulkCbWrap.ofBytes]
  rw [u32Bytes_u32At (by omega), u32Bytes_u32At (by omega), u32Bytes_u32At (by omega), hbytes, hcdb,
    List.drop_zero, ← List.take_add, ← List.take_add, ← List.take_add, List.take_append_drop]

/-- A wrapper that asks for something the gadget understands. -/
structure BulkCbWrap.Meaningful (cbw : BulkCbWrap) : Prop where
  signature : cbw.signature = US_BULK_CB_SIGN
  lun : cbw.lun.toNat < FSG_MAX_LUNS
  flags : cbw.flags = 0 ∨ cbw.flags = US_BULK_FLAG_IN
  length : 0 < cbw.length.toNat ∧ cbw.length.toNat ≤ MAX_COMMAND_SIZE

theorem flags_iff (flags : UInt8) :
    flags &&& ~~~US_BULK_FLAG_IN = 0 ↔ flags = 0 ∨ flags = US_BULK_FLAG_IN := by
  have hbits : ∀ b : BitVec 8, b &&& ~~~0x80#8 = 0#8 ↔ b = 0#8 ∨ b = 0x80#8 := by decide
  simp only [← UInt8.toBitVec_inj]
  exact hbits flags.toBitVec

/-- The tests of `received_cbw`, on the fields of a wrapper. -/
theorem meaningful_iff {cbw : BulkCbWrap} (hsignature : cbw.signature = US_BULK_CB_SIGN) :
    ¬ (cbw.lun.toNat ≥ FSG_MAX_LUNS ∨ cbw.flags &&& ~~~US_BULK_FLAG_IN ≠ 0 ∨ cbw.length ≤ 0 ∨
      cbw.length.toNat > MAX_COMMAND_SIZE) ↔ cbw.Meaningful := by
  simp only [not_or, not_not, flags_iff, UInt8.not_le, UInt8.lt_iff_toNat_lt, not_lt, ge_iff_le,
    not_le]
  constructor
  · rintro ⟨hlun, hflags, hpos, hmax⟩
    exact ⟨hsignature, hlun, hflags, hpos, hmax⟩
  · rintro ⟨-, hlun, hflags, hpos, hmax⟩
    exact ⟨hlun, hflags, hpos, hmax⟩

/-- A command is accepted exactly when the packet is a wrapper of the right length that makes
sense, and what is saved is what the host put into it. -/
theorem receiveCbw_command {ignoreBulkOut : Bool} {cmnd : ℕ → UInt8} {p : OutPacket} {number : ℕ}
    {cmd : HostCommand} {tag : UInt32} :
    receiveCbw ignoreBulkOut cmnd p = .command number cmd tag ↔
      p.status = 0 ∧ ignoreBulkOut = false ∧ ∃ cbw : BulkCbWrap, cbw.Meaningful ∧
        p.bytes = cbw.toBytes ∧ number = cbw.lun.toNat ∧ cmd = cbw.command cmnd ∧ tag = cbw.tag := by
  constructor
  · intro h
    unfold receiveCbw at h
    dsimp only at h
    split_ifs at h with hignored hinvalid hmeaning
    obtain ⟨hstatus, hignore⟩ := not_or.mp hignored
    obtain ⟨hlength, hsignature⟩ := not_or.mp hinvalid
    have hmeaningful := (meaningful_iff (not_not.mp hsignature)).mp hmeaning
    injection h with hnumber hcmd htag
    refine ⟨not_not.mp hstatus, eq_false_of_ne_true hignore, BulkCbWrap.ofBytes p.bytes, hmeaningful,
      (toBytes_ofBytes (not_not.mp hlength)).symm, hnumber.symm, hcmd.symm, htag.symm⟩
  · rintro ⟨hstatus, hignore, cbw, hmeaningful, hbytes, rfl, rfl, rfl⟩
    unfold receiveCbw
    simp only [hbytes, ofBytes_toBytes, cbw.length_toBytes, hstatus, hignore, hmeaningful.signature]
    rw [if_neg (by decide), if_neg (by decide),
      if_neg ((meaningful_iff hmeaningful.signature).mpr hmeaningful)]

/-! ### Status -/

def BulkStatus.code : BulkStatus → UInt8
  | .ok => 0
  | .fail => 1
  | .phase => 2

/-- `struct bulk_cs_wrap`, as `send_status` fills it. The tag goes back as it came. -/
def BulkCsWrap.toBytes (csw : BulkCsWrap) (tag : UInt32) : List UInt8 :=
  u32Bytes US_BULK_CS_SIGN ++ u32Bytes tag ++ u32Bytes csw.residue ++ [csw.status.code]

/-- The host reads back the tag, the residue and the status. -/
theorem BulkCsWrap.read_toBytes (csw : BulkCsWrap) (tag : UInt32) :
    (csw.toBytes tag).length = US_BULK_CS_WRAP_LEN ∧ u32At (csw.toBytes tag) 4 = tag ∧
      u32At (csw.toBytes tag) 8 = csw.residue ∧ (csw.toBytes tag).getD 12 0 = csw.status.code := by
  refine ⟨?_, ?_, ?_, rfl⟩
  · simp only [BulkCsWrap.toBytes, List.length_append, u32Bytes_length, List.length_cons,
      List.length_nil]
    rfl
  · simp only [BulkCsWrap.toBytes, List.append_assoc]
    exact u32At_append (u32Bytes US_BULK_CS_SIGN) tag _
  · simp only [BulkCsWrap.toBytes, List.append_assoc]
    rw [← List.append_assoc]
    exact u32At_append (u32Bytes US_BULK_CS_SIGN ++ u32Bytes tag) csw.residue _

end UsbFloppy.Kernel
