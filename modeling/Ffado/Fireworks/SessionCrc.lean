import Ffado.Bebob.Bcd

/-!
# The checksum of a session

The checksum is computed over the session as the host has it in memory, without its first two
fields. On a big-endian host the bytes of the header are taken in reversed order first, but the byte
counter is not reduced, so that the loop for the rest runs on behind the session.
-/
namespace Ffado.Fireworks

open Bebob Bebob.Bcd Cmd Crc

def crcTable : List (BitVec 32) :=
  [0x00000000, 0x77073096, 0xEE0E612C, 0x990951BA, 0x076DC419, 0x706AF48F, 0xE963A535, 0x9E6495A3,
    0x0EDB8832, 0x79DCB8A4, 0xE0D5E91E, 0x97D2D988, 0x09B64C2B, 0x7EB17CBD, 0xE7B82D07, 0x90BF1D91,
    0x1DB71064, 0x6AB020F2, 0xF3B97148, 0x84BE41DE, 0x1ADAD47D, 0x6DDDE4EB, 0xF4D4B551, 0x83D385C7,
    0x136C9856, 0x646BA8C0, 0xFD62F97A, 0x8A65C9EC, 0x14015C4F, 0x63066CD9, 0xFA0F3D63, 0x8D080DF5,
    0x3B6E20C8, 0x4C69105E, 0xD56041E4, 0xA2677172, 0x3C03E4D1, 0x4B04D447, 0xD20D85FD, 0xA50AB56B,
    0x35B5A8FA, 0x42B2986C, 0xDBBBC9D6, 0xACBCF940, 0x32D86CE3, 0x45DF5C75, 0xDCD60DCF, 0xABD13D59,
    0x26D930AC, 0x51DE003A, 0xC8D75180, 0xBFD06116, 0x21B4F4B5, 0x56B3C423, 0xCFBA9599, 0xB8BDA50F,
    0x2802B89E, 0x5F058808, 0xC60CD9B2, 0xB10BE924, 0x2F6F7C87, 0x58684C11, 0xC1611DAB, 0xB6662D3D,
    0x76DC4190, 0x01DB7106, 0x98D220BC, 0xEFD5102A, 0x71B18589, 0x06B6B51F, 0x9FBFE4A5, 0xE8B8D433,
    0x7807C9A2, 0x0F00F934, 0x9609A88E, 0xE10E9818, 0x7F6A0DBB, 0x086D3D2D, 0x91646C97, 0xE6635C01,
    0x6B6B51F4, 0x1C6C6162, 0x856530D8, 0xF262004E, 0x6C0695ED, 0x1B01A57B, 0x8208F4C1, 0xF50FC457,
    0x65B0D9C6, 0x12B7E950, 0x8BBEB8EA, 0xFCB9887C, 0x62DD1DDF, 0x15DA2D49, 0x8CD37CF3, 0xFBD44C65,
    0x4DB26158, 0x3AB551CE, 0xA3BC0074, 0xD4BB30E2, 0x4ADFA541, 0x3DD895D7, 0xA4D1C46D, 0xD3D6F4FB,
    0x4369E96A, 0x346ED9FC, 0xAD678846, 0xDA60B8D0, 0x44042D73, 0x33031DE5, 0xAA0A4C5F, 0xDD0D7CC9,
    0x5005713C, 0x270241AA, 0xBE0B1010, 0xC90C2086, 0x5768B525, 0x206F85B3, 0xB966D409, 0xCE61E49F,
    0x5EDEF90E, 0x29D9C998, 0xB0D09822, 0xC7D7A8B4, 0x59B33D17, 0x2EB40D81, 0xB7BD5C3B, 0xC0BA6CAD,
    0xEDB88320, 0x9ABFB3B6, 0x03B6E20C, 0x74B1D29A, 0xEAD54739, 0x9DD277AF, 0x04DB2615, 0x73DC1683,
    0xE3630B12, 0x94643B84, 0x0D6D6A3E, 0x7A6A5AA8, 0xE40ECF0B, 0x9309FF9D, 0x0A00AE27, 0x7D079EB1,
    0xF00F9344, 0x8708A3D2, 0x1E01F268, 0x6906C2FE, 0xF762575D, 0x806567CB, 0x196C3671, 0x6E6B06E7,
    0xFED41B76, 0x89D32BE0, 0x10DA7A5A, 0x67DD4ACC, 0xF9B9DF6F, 0x8EBEEFF9, 0x17B7BE43, 0x60B08ED5,
    0xD6D6A3E8, 0xA1D1937E, 0x38D8C2C4, 0x4FDFF252, 0xD1BB67F1, 0xA6BC5767, 0x3FB506DD, 0x48B2364B,
    0xD80D2BDA, 0xAF0A1B4C, 0x36034AF6, 0x41047A60, 0xDF60EFC3, 0xA867DF55, 0x316E8EEF, 0x4669BE79,
    0xCB61B38C, 0xBC66831A, 0x256FD2A0, 0x5268E236, 0xCC0C7795, 0xBB0B4703, 0x220216B9, 0x5505262F,
    0xC5BA3BBE, 0xB2BD0B28, 0x2BB45A92, 0x5CB36A04, 0xC2D7FFA7, 0xB5D0CF31, 0x2CD99E8B, 0x5BDEAE1D,
    0x9B64C2B0, 0xEC63F226, 0x756AA39C, 0x026D930A, 0x9C0906A9, 0xEB0E363F, 0x72076785, 0x05005713,
    0x95BF4A82, 0xE2B87A14, 0x7BB12BAE, 0x0CB61B38, 0x92D28E9B, 0xE5D5BE0D, 0x7CDCEFB7, 0x0BDBDF21,
    0x86D3D2D4, 0xF1D4E242, 0x68DDB3F8, 0x1FDA836E, 0x81BE16CD, 0xF6B9265B, 0x6FB077E1, 0x18B74777,
    0x88085AE6, 0xFF0F6A70, 0x66063BCA, 0x11010B5C, 0x8F659EFF, 0xF862AE69, 0x616BFFD3, 0x166CCF45,
    0xA00AE278, 0xD70DD2EE, 0x4E048354, 0x3903B3C2, 0xA7672661, 0xD06016F7, 0x4969474D, 0x3E6E77DB,
    0xAED16A4A, 0xD9D65ADC, 0x40DF0B66, 0x37D83BF0, 0xA9BCAE53, 0xDEBB9EC5, 0x47B2CF7F, 0x30B5FFE9,
    0xBDBDF21C, 0xCABAC28A, 0x53B39330, 0x24B4A3A6, 0xBAD03605, 0xCDD70693, 0x54DE5729, 0x23D967BF,
    0xB3667A2E, 0xC4614AB8, 0x5D681B02, 0x2A6F2B94, 0xB40BBE37, 0xC30C8EA1, 0x5A05DF1B, 0x2D02EF8D]

def crcByte (remainder : BitVec 32) (b : UInt8) : BitVec 32 :=
  crcTable.getD ((remainder ^^^ b.toBitVec.setWidth 32) &&& 0xff).toNat 0 ^^^ (remainder >>> 8)

/-- The quadlets of a `SessionHeader` behind its first two. -/
def fieldQuads : ℕ := 1826

/-- The size of a `SubSession`. -/
def subBytes : ℕ := 6080

structure Session where
  sizeQuads : Quadlet
  crc : Quadlet
  fields : Fin fieldQuads → Quadlet
  sub : Fin subBytes → UInt8

/-- The state of the loop over the header on a big-endian host. -/
structure CrcLoop where
  remainder : BitVec 32
  data : List UInt8
  offset : ℕ
  bebytes : ℕ

def CrcLoop.turn (l : CrcLoop) : CrcLoop :=
  let remainder := crcByte l.remainder (l.data.getD l.offset 0)
  if l.offset = 0 then ⟨remainder, l.data.drop 4, 3, l.bebytes - 4⟩
  else ⟨remainder, l.data, l.offset - 1, l.bebytes⟩

def CrcLoop.run : ℕ → CrcLoop → CrcLoop
  | 0, l => l
  | fuel + 1, l => if l.bebytes > 0 then run fuel l.turn else l

namespace Session

variable (s : Session)

def memory (order : ByteOrder) : List UInt8 :=
  quadletBytes order s.sizeQuads ++ quadletBytes order s.crc ++
    ((List.ofFn s.fields).flatMap (quadletBytes order) ++ List.ofFn s.sub)

/-- `behind` is what stands in memory behind the copy of the session. -/
def calculateCRC (order : ByteOrder) (behind : ℕ → UInt8) : BitVec 32 :=
  let data := (s.memory order ++ (List.range (4 * fieldQuads)).map behind).drop 8
  let bytecount := 4 * fieldQuads + subBytes
  match order with
  | .littleEndian => (data.take bytecount).foldl crcByte 0xffffffff ^^^ 0xffffffff
  | .bigEndian =>
    let l := CrcLoop.run (4 * fieldQuads) ⟨0xffffffff, data, 3, bytecount - subBytes⟩
    (l.data.take bytecount).foldl crcByte l.remainder ^^^ 0xffffffff

/-- The little-endian session without its first two quadlets. -/
def image : List UInt8 := (s.memory .littleEndian).drop 8

def remainder : BitVec 32 := s.image.foldl crcByte 0xffffffff

end Session

theorem crcTable_eq : ∀ i < 256, crcTable.getD i 0 =
    (shiftDown 0xedb88320 · false)^[8] (BitVec.ofNat 32 i) := by
  decide +kernel

/-- Only the low byte of the remainder gets into the index. -/
theorem index_eq (r : BitVec 32) (b : UInt8) :
    (r ^^^ b.toBitVec.setWidth 32) &&& 0xff = (r &&& 0xff) ^^^ b.toBitVec.setWidth 32 := by
  apply BitVec.eq_of_getLsbD_eq
  intro i _
  rw [BitVec.getLsbD_and, BitVec.getLsbD_xor, BitVec.getLsbD_xor, BitVec.getLsbD_and, getLsbD_ff]
  by_cases hi : i < 8
  · simp [hi]
  · simp [hi, BitVec.getLsbD_of_ge b.toBitVec i (by omega)]

theorem index_lt (r : BitVec 32) : (r &&& 0xff).toNat < 256 := by
  rw [BitVec.toNat_and]
  exact Nat.and_lt_two_pow (n := 8) _ (by decide)

theorem crcByte_eq : crcByte = crcStep 32 := by
  funext r b
  have hreverse : polynomial.reverse = 0xedb88320 := by decide +kernel
  have hindex := index_lt (r ^^^ b.toBitVec.setWidth 32)
  rw [crcByte, crcTable_eq _ hindex, ← hreverse, ← crc32Table_eq hindex, index_eq, crcStep,
    BitVec.xor_comm]

theorem crcByte_ne (r : BitVec 32) : crcByte r 0 ≠ crcByte r 1 := by
  have htable : ∀ i < 256, crcTable.getD i 0 ≠ crcTable.getD (i ^^^ 1) 0 := by decide +kernel
  intro h
  have heq := (BitVec.xor_left_inj _).mp h
  rw [index_eq, index_eq, BitVec.toNat_xor, BitVec.toNat_xor] at heq
  apply htable _ (index_lt r)
  simpa using heq

theorem CrcLoop.run_eq (quads : List Quadlet) (rest : List UInt8) (r : BitVec 32) :
    run (4 * quads.length) ⟨r, quads.flatMap (quadletBytes .bigEndian) ++ rest, 3,
      4 * quads.length⟩ = ⟨(quads.flatMap (quadletBytes .littleEndian)).foldl crcByte r,
      rest, 3, 0⟩ := by
  induction quads generalizing r with
  | nil => rfl
  | cons q quads ih =>
    rw [List.length_cons, Nat.mul_add, List.flatMap_cons, List.flatMap_cons,
      List.foldl_append, ← ih]
    rfl

namespace Session

variable (s : Session) (behind : ℕ → UInt8)

theorem drop_memory (order : ByteOrder) (rest : List UInt8) : (s.memory order ++ rest).drop 8 =
    (List.ofFn s.fields).flatMap (quadletBytes order) ++ List.ofFn s.sub ++ rest := by
  rw [memory, List.append_assoc]
  generalize (List.ofFn s.fields).flatMap (quadletBytes order) ++ List.ofFn s.sub ++ rest = data
  cases order <;> rfl

theorem image_eq : s.image =
    (List.ofFn s.fields).flatMap (quadletBytes .littleEndian) ++ List.ofFn s.sub := by
  have hdrop := s.drop_memory .littleEndian []
  rwa [List.append_nil, List.append_nil] at hdrop

theorem calculateCRC_littleEndian :
    s.calculateCRC .littleEndian behind = s.remainder ^^^ 0xffffffff := by
  have hquads : ∀ quads : List Quadlet,
      (quads.flatMap (quadletBytes .littleEndian)).length = 4 * quads.length := by
    intro quads
    simp [List.length_flatMap, Nat.mul_comm]
  have hlength : s.image.length = 4 * fieldQuads + subBytes := by
    rw [image_eq, List.length_append, hquads, List.length_ofFn, List.length_ofFn]
  rw [calculateCRC, drop_memory, ← image_eq, List.take_left' hlength, remainder]

/-- The rest of the image is followed by the bytes behind the session. -/
theorem calculateCRC_bigEndian : s.calculateCRC .bigEndian behind =
    ((List.range (4 * fieldQuads)).map behind).foldl crcByte s.remainder ^^^ 0xffffffff := by
  have hrun := CrcLoop.run_eq (List.ofFn s.fields)
    (List.ofFn s.sub ++ (List.range (4 * fieldQuads)).map behind) 0xffffffff
  have hlength : (List.ofFn s.sub ++ (List.range (4 * fieldQuads)).map behind).length =
      4 * fieldQuads + subBytes := by
    simp [Nat.add_comm]
  rw [List.length_ofFn, ← List.append_assoc] at hrun
  rw [calculateCRC, drop_memory]
  simp only [Nat.add_sub_cancel]
  rw [hrun, List.take_of_length_le hlength.le, List.foldl_append, remainder, image_eq,
    List.foldl_append]

theorem isCrc32_image : IsCrc32 s.image (s.remainder ^^^ 0xffffffff) := by
  have hcrc := isCrc32_getCRC s.image
  rwa [getCRC, BitVec.setWidth_eq, ← crcByte_eq] at hcrc

/-- The checksum is the same on both hosts, and the CRC-32 of the image, just if the bytes behind
the session lead the remainder back to where it was. -/
theorem calculateCRC_portable_iff :
    (s.calculateCRC .bigEndian behind = s.calculateCRC .littleEndian behind ∧
      IsCrc32 s.image (s.calculateCRC .littleEndian behind) ∧
      IsCrc32 s.image (s.calculateCRC .bigEndian behind)) ↔
    ((List.range (4 * fieldQuads)).map behind).foldl crcByte s.remainder = s.remainder := by
  rw [calculateCRC_littleEndian, calculateCRC_bigEndian, BitVec.xor_left_inj]
  constructor
  · intro h
    exact h.1
  · intro h
    rw [h]
    exact ⟨rfl, s.isCrc32_image, s.isCrc32_image⟩

/-- Two memories that differ behind the session give two checksums. -/
theorem calculateCRC_differs : ¬ ∀ behind, calculateCRC ⟨0, 0, fun _ => 0, fun _ => 0⟩
    .bigEndian behind = calculateCRC ⟨0, 0, fun _ => 0, fun _ => 0⟩ .littleEndian behind := by
  intro h
  obtain ⟨n, hn⟩ : ∃ n, 4 * fieldQuads = n + 1 := ⟨7303, rfl⟩
  have hzero := h fun _ => 0
  have hone := h fun i => if i = n then 1 else 0
  rw [calculateCRC_littleEndian, calculateCRC_bigEndian, BitVec.xor_left_inj, hn, List.range_succ,
    List.map_append, List.foldl_append] at hzero hone
  have hsame : (List.range n).map (fun i => if i = n then (1 : UInt8) else 0) =
      (List.range n).map fun _ => 0 := by
    apply List.map_congr_left
    intro i hi
    exact if_neg (List.mem_range.mp hi).ne
  rw [hsame, List.map_singleton, if_pos rfl] at hone
  exact crcByte_ne _ (hzero.trans hone.symm)

end Session

end Ffado.Fireworks
