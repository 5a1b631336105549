import Rune.Core.BigEndian
import Rune.Core.Cut
import Rune.Core.Delimited

/-!
# Internet addresses and networks as text

Addresses are strings of 4 or 16 bytes, networks an address and a mask of one
length. Texts are read as network libraries read them: dotted decimal fields without
leading zeros, hexadecimal groups with one ellipsis and possibly a dotted tail, no
zones. An IPv4 network with `n` mask bits is the numbers from its first address on
that differ in the other bits.
-/

namespace Rune.Core

open List

/-- One field of a dotted address. -/
def parseOctet (field : List Char) : Option UInt8 :=
  if field = [] ∨ field.all Char.isDigit = false then none
  else if 1 < field.length ∧ field.head? = some '0' then none
  else if 255 < Nat.ofDigitChars 10 field 0 then none
  else some (UInt8.ofNat (Nat.ofDigitChars 10 field 0))

/-- Four octets. -/
def parseIPv4 (s : List Char) : Option Bytes :=
  match (s.splitOn '.').mapM parseOctet with
  | some [a, b, c, d] => some [a, b, c, d]
  | _ => none

/-- The digits of a group. -/
def isHexDigit (c : Char) : Bool :=
  c.isDigit || ('a' ≤ c && c ≤ 'f') || ('A' ≤ c && c ≤ 'F')

/-- The value of such a digit. -/
def hexValue (c : Char) : ℕ :=
  if c.isDigit then c.toNat - '0'.toNat
  else if 'a' ≤ c then c.toNat - 'a'.toNat + 10
  else c.toNat - 'A'.toNat + 10

/-- The loop over the groups of an IPv6 address: what has been read, where the ellipsis was, and
the rest of the text. There is room for eight groups. -/
def parseGroups : ℕ → Bytes → Option ℕ → List Char → Option (Bytes × Option ℕ × List Char)
  | 0, ip, ellipsis, s => some (ip, ellipsis, s)
  | room + 1, ip, ellipsis, s =>
    let group := s.takeWhile isHexDigit
    if group = [] ∨ 4 < group.length then none
    else
      let read := ip ++ putUint 2 (group.foldl (fun n c => 16 * n + hexValue c) 0)
      match s.dropWhile isHexDigit with
      | [] => some (read, ellipsis, [])
      | '.' :: _ =>
        if ellipsis = none ∧ ip.length ≠ 12 ∨ 16 < ip.length + 4 then none
        else (parseIPv4 s).map fun tail => (ip ++ tail, ellipsis, [])
      | [':'] => none
      | ':' :: ':' :: more =>
        if ellipsis.isSome then none
        else if more = [] then some (read, some read.length, [])
        else parseGroups room read (some read.length) more
      | ':' :: more => parseGroups room read ellipsis more
      | _ => none

/-- Put the zeros of the ellipsis in. -/
def expandEllipsis : Bytes × Option ℕ × List Char → Option Bytes
  | (ip, ellipsis, rest) =>
    if rest ≠ [] then none
    else if ip.length < 16 then
      ellipsis.map fun k => ip.take k ++ List.replicate (16 - ip.length) 0 ++ ip.drop k
    else if ellipsis.isSome then none
    else some ip

/-- Groups of 16 bits with at most one ellipsis. -/
def parseIPv6 (s : List Char) : Option Bytes :=
  match s with
  | [':', ':'] => some (List.replicate 16 0)
  | ':' :: ':' :: more => (parseGroups 8 [] (some 0) more).bind expandEllipsis
  | _ => (parseGroups 8 [] none s).bind expandEllipsis

/-- Read an address: the first dot, colon or percent sign decides its kind. -/
def parseAddr (s : List Char) : Option Bytes :=
  match s.find? fun c => c = '.' ∨ c = ':' ∨ c = '%' with
  | some '.' => parseIPv4 s
  | some ':' => if '%' ∈ s then none else parseIPv6 s
  | _ => none

/-- What comes before the four bytes of an IPv4 address written with sixteen. -/
def v4InV6Prefix : Bytes := [0, 0, 0, 0, 0, 0, 0, 0, 0, 0, 0xff, 0xff]

/-- The bytes of an address, sixteen of them. -/
def parseIP (s : String) : Option Bytes :=
  (parseAddr s.toList).map fun ip => if ip.length = 4 then v4InV6Prefix ++ ip else ip

/-- The four bytes of an IPv4 address. -/
def to4 (ip : Bytes) : Option Bytes :=
  if ip.length = 4 then some ip
  else if ip.length = 16 ∧ ip.take 12 = v4InV6Prefix then some (ip.drop 12)
  else none

/-- The host and the port of an address. Brackets around the host let it have colons. -/
def splitHostPort (s : String) : Option (String × String) :=
  (cutLast ':' s.toList).bind fun (front, port) =>
    let host := match front with
      | '[' :: rest => if rest.getLast? = some ']' then some rest.dropLast else none
      | _ => if ':' ∈ front then none else some front
    (host.filter fun host => (host ++ port).all fun c => c ≠ '[' && c ≠ ']').map
      fun host => (String.ofList host, String.ofList port)

/-- The dotted text. -/
def dotted (ip : Bytes) : String := joinWith '.' (ip.map fun b => b.toNat.repr)

/-- The 16-bit groups of an address. -/
def groups : Bytes → List ℕ
  | a :: b :: rest => (256 * a.toNat + b.toNat) :: groups rest
  | _ => []

/-- The first of the longest runs of at least two zero groups, as its start and length. -/
def longestZeros (gs : List ℕ) : ℕ × ℕ :=
  (List.range gs.length).foldl (fun best i =>
    let run := ((gs.drop i).takeWhile (· = 0)).length
    if 2 ≤ run ∧ best.2 < run then (i, run) else best) (0, 0)

/-- Groups in hexadecimal. -/
def colonHex (gs : List ℕ) : String :=
  joinWith ':' (gs.map fun g => String.ofList (Nat.toDigits 16 g))

/-- The text of an address; the longest run of zeros is left out. -/
def ipString (ip : Bytes) : String :=
  if ip = [] then "<nil>"
  else match to4 ip with
    | some ip4 => dotted ip4
    | none =>
      let gs := groups ip
      match longestZeros gs with
      | (_, 0) => colonHex gs
      | (i, run) => colonHex (gs.take i) ++ "::" ++ colonHex (gs.drop (i + run))

/-- A network: its first address and its mask. -/
structure IPNet where
  ip : Bytes
  mask : Bytes
  deriving DecidableEq

/-- A mask of the given number of bytes whose first `n` bits are set. -/
def cidrMask : ℕ → ℕ → Bytes
  | _, 0 => []
  | n, l + 1 =>
    if 8 ≤ n then 0xff :: cidrMask (n - 8) l else (~~~(0xff >>> UInt8.ofNat n)) :: cidrMask 0 l

/-- An address and the length of the mask. -/
def parseCIDR (s : String) : Option IPNet :=
  match s.toList.dropWhile (· ≠ '/') with
  | [] => none
  | _ :: bits =>
    match parseAddr (s.toList.takeWhile (· ≠ '/')) with
    | none => none
    | some ip =>
      if bits = [] ∨ bits.all Char.isDigit = false then none
      else if 8 * ip.length < Nat.ofDigitChars 10 bits 0 then none
      else
        let mask := cidrMask (Nat.ofDigitChars 10 bits 0) ip.length
        some { ip := List.zipWith (· &&& ·) ip mask, mask }

/-- The network contains the address. -/
def IPNet.contains (n : IPNet) (ip : Bytes) : Bool :=
  let number := (to4 n.ip).getD n.ip
  let mask := if n.mask.length = 16 ∧ number.length = 4 then n.mask.drop 12 else n.mask
  let ip := (to4 ip).getD ip
  ip.length = number.length ∧ mask.length = number.length ∧
    List.zipWith (· &&& ·) number mask = List.zipWith (· &&& ·) ip mask

/-- The number of bits that are set in the mask. -/
def IPNet.ones (n : IPNet) : ℕ :=
  (n.mask.map fun b => (List.range 8).countP fun i => b.toNat.testBit i).sum

/-- The number of the network address. -/
def IPNet.first (n : IPNet) : ℕ := getUint n.ip

/-- The number of the broadcast address. -/
def IPNet.last (n : IPNet) : ℕ := n.first + 2 ^ (8 * n.ip.length - n.ones) - 1

/-- An octet is read back. -/
theorem parseOctet_repr (b : UInt8) : parseOctet b.toNat.repr.toList = some b := by
  have hall : ∀ n : Fin 256, parseOctet n.val.repr.toList = some (UInt8.ofNat n.val) := by
    decide +kernel
  simpa using hall ⟨b.toNat, b.toNat_lt⟩

variable {ip : Bytes}

/-- The characters of a dotted address are digits and dots. -/
theorem mem_toList_dotted {c : Char} (h : c ∈ (dotted ip).toList) : c.isDigit = true ∨ c = '.' := by
  by_cases hdot : c = '.'
  · exact .inr hdot
  · refine .inl (by_contra fun hc => ?_)
    refine avoids_joinWith hdot (fun x hx => ?_) h
    obtain ⟨b, -, rfl⟩ := mem_map.mp hx
    exact avoids_natRepr (by simpa using hc) b.toNat

theorem avoids_dotted {c : Char} (hc : c.isDigit = false) (hdot : c ≠ '.') (ip : Bytes) :
    Avoids c (dotted ip) := by
  intro h
  rcases mem_toList_dotted h with h | h
  · rw [hc] at h
    cases h
  · exact hdot h

private theorem splitOn_dotted (hne : ip ≠ []) :
    (dotted ip).toList.splitOn '.' = ip.map fun b => b.toNat.repr.toList := by
  rw [dotted, splitOn_joinWith, map_map]
  · rfl
  · intro x hx
    obtain ⟨b, -, rfl⟩ := mem_map.mp hx
    exact avoids_natRepr rfl b.toNat
  · simpa using hne

/-- A dotted text is read back. -/
theorem parseIPv4_dotted (hlen : ip.length = 4) : parseIPv4 (dotted ip).toList = some ip := by
  have hne : ip ≠ [] := ne_nil_of_length_pos (by omega)
  match ip, hlen with
  | [a, b, c, d], _ =>
    rw [parseIPv4, splitOn_dotted hne]
    simp only [map_cons, map_nil, mapM_cons, mapM_nil, parseOctet_repr]
    rfl

theorem parseAddr_dotted (hlen : ip.length = 4) : parseAddr (dotted ip).toList = some ip := by
  have hfind : (dotted ip).toList.find? (fun c => c = '.' ∨ c = ':' ∨ c = '%') = some '.' := by
    have hmem : '.' ∈ (dotted ip).toList := by
      match ip, hlen with
      | [a, b, c, d], _ => simp [dotted, toList_joinWith, intercalate]
    cases hf : (dotted ip).toList.find? (fun c => c = '.' ∨ c = ':' ∨ c = '%') with
    | none =>
      rw [find?_eq_none] at hf
      exact absurd (hf '.' hmem) (by decide)
    | some c =>
      have hc := find?_some hf
      have hm := mem_of_find?_eq_some hf
      simp only [decide_eq_true_eq] at hc
      rcases hc with rfl | rfl | rfl
      · rfl
      · exact absurd hm (avoids_dotted (by decide) (by decide) ip)
      · exact absurd hm (avoids_dotted (by decide) (by decide) ip)
  rw [parseAddr, hfind]
  exact parseIPv4_dotted hlen

theorem parseIP_dotted (hlen : ip.length = 4) :
    parseIP (dotted ip) = some (v4InV6Prefix ++ ip) := by
  simp [parseIP, parseAddr_dotted hlen, hlen]

theorem ipString_of_length (hlen : ip.length = 4) : ipString ip = dotted ip := by
  have hne : ip ≠ [] := ne_nil_of_length_pos (by omega)
  simp [ipString, to4, hlen, hne]

theorem ipString_v4InV6 (hlen : ip.length = 4) : ipString (v4InV6Prefix ++ ip) = dotted ip := by
  have h4 : to4 (v4InV6Prefix ++ ip) = some ip := by
    simp [to4, v4InV6Prefix, hlen]
  rw [ipString, h4, if_neg (by simp [v4InV6Prefix])]

@[simp] theorem length_cidrMask (n l : ℕ) : (cidrMask n l).length = l := by
  induction l generalizing n with
  | zero => rfl
  | succ l ih =>
    rw [cidrMask]
    split <;> rw [length_cons, ih]

theorem getUint_cidrMask {n l : ℕ} (h : n ≤ 8 * l) :
    getUint (cidrMask n l) + 2 ^ (8 * l - n) = 2 ^ (8 * l) := by
  induction l generalizing n with
  | zero =>
    obtain rfl : n = 0 := by omega
    rfl
  | succ l ih =>
    have hpow : (256 : ℕ) ^ l = 2 ^ (8 * l) := by rw [pow_mul]; rfl
    have htop : 2 ^ (8 * (l + 1)) = 256 * 2 ^ (8 * l) := by
      rw [Nat.mul_succ, pow_add, Nat.mul_comm]
      rfl
    rw [cidrMask]
    split
    · have hrest := ih (n := n - 8) (by omega)
      rw [getUint_cons, length_cidrMask, show 8 * (l + 1) - n = 8 * l - (n - 8) by omega]
      have hff : (0xff : UInt8).toNat = 255 := rfl
      rw [hff]
      omega
    · have hbyte : ∀ i < 8, (~~~(0xff >>> UInt8.ofNat i)).toNat + 2 ^ (8 - i) = 256 := by decide
      have hrest := ih (n := 0) (by omega)
      have hk : 2 ^ (8 * (l + 1) - n) = 2 ^ (8 - n) * 2 ^ (8 * l) := by
        rw [← pow_add]
        congr 1
        omega
      have hzero : getUint (cidrMask 0 l) = 0 := by
        rw [Nat.sub_zero] at hrest
        omega
      rw [getUint_cons, length_cidrMask, hpow, htop, hk, hzero, Nat.add_zero, ← Nat.add_mul,
        hbyte n (by omega)]

/-- Clearing all but the first `n` bits. -/
theorem getUint_and_cidrMask {n : ℕ} (h : n ≤ 8 * ip.length) :
    getUint (List.zipWith (· &&& ·) ip (cidrMask n ip.length)) =
      2 ^ (8 * ip.length - n) * (getUint ip / 2 ^ (8 * ip.length - n)) := by
  have hmask := getUint_cidrMask h
  have hlt : getUint ip < 2 ^ (8 * ip.length) := by
    have hlt := getUint_lt ip
    rwa [show (256 : ℕ) = 2 ^ 8 from rfl, ← pow_mul] at hlt
  have hval : getUint (cidrMask n ip.length) = 2 ^ (8 * ip.length - n) * (2 ^ n - 1) := by
    have hprod : 2 ^ (8 * ip.length - n) * 2 ^ n = 2 ^ (8 * ip.length) := by
      rw [← pow_add]
      congr 1
      omega
    rw [Nat.mul_sub_one]
    omega
  rw [getUint_zipWith UInt8.toNat_and Nat.testBit_and (by simp) rfl, hval]
  generalize hk : 8 * ip.length - n = k at *
  refine Nat.eq_of_testBit_eq fun i => ?_
  rw [Nat.testBit_and, Nat.testBit_two_pow_mul, Nat.testBit_two_pow_mul, Nat.testBit_div_two_pow]
  by_cases hi : k ≤ i
  · by_cases htop : i - k < n
    · simp [hi, htop]
    · have hbig : getUint ip < 2 ^ i := hlt.trans_le (Nat.pow_le_pow_right (by decide) (by omega))
      simp [hi, Nat.testBit_eq_false_of_lt hbig]
  · simp [hi]

/-- Setting all but the first `n` bits of a number that has them clear. -/
theorem getUint_or_cidrMask {n q : ℕ} (h : n ≤ 8 * ip.length)
    (hip : getUint ip = 2 ^ (8 * ip.length - n) * q) :
    getUint (List.zipWith (fun a m => a ||| ~~~m) ip (cidrMask n ip.length)) =
      getUint ip + (2 ^ (8 * ip.length - n) - 1) := by
  have hmask := getUint_cidrMask h
  have hnot := getUint_map_not (cidrMask n ip.length)
  rw [length_cidrMask, show (256 : ℕ) = 2 ^ 8 from rfl, ← pow_mul] at hnot
  have hpos : 0 < 2 ^ (8 * ip.length - n) := by positivity
  have hval : getUint ((cidrMask n ip.length).map (~~~ ·)) = 2 ^ (8 * ip.length - n) - 1 := by
    omega
  rw [← zipWith_map_right, getUint_zipWith UInt8.toNat_or Nat.testBit_or (by simp) rfl,
    hval, hip, Nat.two_pow_add_eq_or_of_lt (by omega)]

/-- The mask has the bits it was made of. -/
theorem ones_cidrMask {n l : ℕ} (h : n ≤ 8 * l) : (IPNet.mk ip (cidrMask n l)).ones = n := by
  have hbyte : ∀ i < 8, ((range 8).countP fun j =>
      (~~~(0xff >>> UInt8.ofNat i)).toNat.testBit j) = i := by decide
  have hfull : ((range 8).countP fun j => (0xff : UInt8).toNat.testBit j) = 8 := by decide
  simp only [IPNet.ones]
  induction l generalizing n with
  | zero =>
    obtain rfl : n = 0 := by omega
    rfl
  | succ l ih =>
    rw [cidrMask]
    split
    · rw [map_cons, sum_cons, ih (by omega)]
      omega
    · rw [map_cons, sum_cons, ih (Nat.zero_le _), hbyte n (by omega), Nat.add_zero]

/-- What is read as a network has its address cut down to the mask. -/
theorem parseCIDR_eq_some {s : String} {net : IPNet} (h : parseCIDR s = some net) :
    ∃ (ip : Bytes) (n : ℕ), n ≤ 8 * ip.length ∧
      net = { ip := List.zipWith (· &&& ·) ip (cidrMask n ip.length),
              mask := cidrMask n ip.length } := by
  unfold parseCIDR at h
  split at h
  · cases h
  · split at h
    · cases h
    · rename_i ip _
      split_ifs at h with hbits hlen
      exact ⟨ip, _, by omega, (Option.some.inj h).symm⟩

/-- The broadcast address, computed from the bytes. -/
theorem getUint_broadcast {s : String} {net : IPNet} (h : parseCIDR s = some net) :
    getUint (List.zipWith (fun a m => a ||| ~~~m) net.ip net.mask) = net.last := by
  obtain ⟨ip, n, hn, rfl⟩ := parseCIDR_eq_some h
  have hlen : (zipWith (· &&& ·) ip (cidrMask n ip.length)).length = ip.length := by simp
  have hfirst := getUint_and_cidrMask hn
  have hor : getUint (zipWith (fun a m => a ||| ~~~m)
      (zipWith (· &&& ·) ip (cidrMask n ip.length)) (cidrMask n ip.length)) =
      getUint (zipWith (· &&& ·) ip (cidrMask n ip.length)) +
        (2 ^ (8 * ip.length - n) - 1) := by
    have hor := @getUint_or_cidrMask (zipWith (· &&& ·) ip (cidrMask n ip.length)) n
    rw [hlen] at hor
    exact hor hn hfirst
  have hpos : 0 < 2 ^ (8 * ip.length - n) := by positivity
  simp only [IPNet.last, IPNet.first, ones_cidrMask hn, hlen, hor]
  omega

end Rune.Core
