import Mathlib.Data.List.DropRight
import Rune.Core.Cut
import Rune.Core.Keyed
import Rune.Models.Disks.Attach
import Rune.Models.Volumes.Row

/-!
# The disks of volumes at a cloud provider

A driver asks the provider for a disk under a key that it makes from the row of the volume, and
takes a disk that is there under that key for its own. For three of the drivers the key is a name
that is joined, cleaned and cut; for the fourth it is the identifier of the row.
-/

namespace Rune.Disks

open Rune.Core List
open Rune.Volumes (Volume isAlnum validateDNS1123Name)

/-- The characters with which a name may start. -/
def isLetter (c : Char) : Bool := 'a' ≤ c && c ≤ 'z'

/-- The characters that become a hyphen. -/
def isSeparator (c : Char) : Bool := c = '-' || c = '_' || c = '/' || c = '.' || c = ' '

/-- What is written so far, and whether a hyphen was written last. -/
def writeRune : List Char × Bool → Char → List Char × Bool
  | (out, prevHyphen), r =>
    if isAlnum r then (out ++ [r], false)
    else if isSeparator r ∧ prevHyphen = false ∧ out ≠ [] then (out ++ ['-'], true)
    else (out, prevHyphen)

section

variable (leads : Char → Bool) (lower : Char → Char) (maxLen : ℕ) (start : List Char)

/-- Put a letter in front of a name that starts with something else. -/
def led (out : List Char) : List Char := if out.head?.any leads then out else 'v' :: out

/-- A name that the provider accepts. -/
def sanitizeName (s : List Char) : List Char :=
  let out := led leads (((s.map lower).foldl writeRune ([], false)).1.rdropWhile (· = '-'))
  if maxLen < out.length then (out.take maxLen).rdropWhile (· = '-') else out

/-- The start, the namespace and the name. -/
def rawName (v : Volume) : List Char := start ++ v.ns.toList ++ '-' :: v.name.toList

/-- The name with `do-volume`. -/
def doVolumeName (v : Volume) : List Char := sanitizeName isLetter lower 64 (rawName start v)

/-- The name with `gce-pd`. -/
def diskName (v : Volume) : List Char := sanitizeName isLetter lower 63 (rawName start v)

/-- The name with `hcloud-volume`. -/
def hcVolumeName (v : Volume) : List Char := sanitizeName isAlnum lower 64 (rawName start v)

/-- The key under which a driver looks for the disk of a row. -/
def Driver.key (d : Driver) (v : Volume) : List Char :=
  match d with
  | .doVolume => doVolumeName lower start v
  | .gcePd => diskName lower start v
  | .hcloudVolume => hcVolumeName lower start v
  | .awsEbs => v.id.toList

/-- The row has a name of its own at the provider: the namespace starts with a letter and has no
hyphen, and the joined name is not cut even with a letter put in front. -/
structure Plain (v : Volume) : Prop where
  ns : validateDNS1123Name v.ns = .ok ()
  name : validateDNS1123Name v.name = .ok ()
  letter : ∃ c, v.ns.toList.head? = some c ∧ isLetter c = true
  joined : '-' ∉ v.ns.toList
  fits : start.length + v.ns.toList.length + v.name.toList.length + 2 ≤ 63

end

theorem label_of_validate {s : String} (h : validateDNS1123Name s = .ok ()) :
    s.toList ≠ [] ∧ s.toList.head? ≠ some '-' ∧ s.toList.getLast? ≠ some '-' ∧
      (∀ c ∈ s.toList, isAlnum c = true ∨ c = '-') ∧ ¬ ['-', '-'] <:+: s.toList := by
  obtain ⟨⟨⟩, hsize, h⟩ := bind_eq_ok h
  obtain ⟨⟨⟩, hends, h⟩ := bind_eq_ok h
  obtain ⟨⟨⟩, hchars, hpair⟩ := bind_eq_ok h
  obtain ⟨hhead, hlast⟩ := not_or.mp (refuseIf_eq_ok.mp hends)
  refine ⟨fun hnil => ?_, hhead, hlast, ?_, refuseIf_eq_ok.mp hpair⟩
  · refine refuseIf_eq_ok.mp hsize (.inl ?_)
    rw [String.toList_eq_nil_iff.mp hnil]
    decide
  · simpa [or_iff_not_imp_left] using refuseIf_eq_ok.mp hchars

variable {leads : Char → Bool} {lower : Char → Char} {maxLen : ℕ} {start : List Char}

/-- A part without two hyphens in a row is written as it is. -/
theorem foldl_writeRune {l out : List Char} {prevHyphen : Bool}
    (hchars : ∀ c ∈ l, isAlnum c = true ∨ c = '-') (hpair : ¬ ['-', '-'] <:+: l)
    (hprev : prevHyphen = true ∨ out = [] → l.head? ≠ some '-') :
    (l.foldl writeRune (out, prevHyphen)).1 = out ++ l := by
  induction l generalizing out prevHyphen with
  | nil => simp
  | cons c l ih =>
    obtain ⟨hc, hrest⟩ := forall_mem_cons.mp hchars
    rw [pair_infix_cons, not_or] at hpair
    have hcons : out ++ c :: l = (out ++ [c]) ++ l := by simp
    rw [foldl_cons, hcons]
    by_cases halnum : isAlnum c = true
    · rw [writeRune, if_pos halnum]
      exact ih hrest hpair.2 (by simp)
    · obtain rfl : c = '-' := hc.resolve_left halnum
      have hfirst : prevHyphen = false ∧ out ≠ [] := by
        constructor
        · by_contra h
          exact hprev (.inl (by simpa using h)) rfl
        · exact fun h => hprev (.inr h) rfl
      rw [writeRune, if_neg halnum, if_pos ⟨rfl, hfirst⟩]
      exact ih hrest hpair.2 fun _ h => hpair.1 ⟨rfl, h⟩

theorem length_foldl_writeRune (l out : List Char) (prevHyphen : Bool) :
    (l.foldl writeRune (out, prevHyphen)).1.length ≤ out.length + l.length := by
  induction l generalizing out prevHyphen with
  | nil => simp
  | cons c l ih =>
    rw [foldl_cons, writeRune, length_cons]
    split_ifs
    · refine (ih _ _).trans ?_
      simp; omega
    · refine (ih _ _).trans ?_
      simp; omega
    · exact (ih _ _).trans (by omega)

theorem led_append {out : List Char} (h : out ≠ []) (l : List Char) :
    led leads (out ++ l) = led leads out ++ l := by
  unfold led
  rw [head?_append_of_ne_nil _ h]
  split_ifs <;> rfl

/-- What the start of the names becomes. -/
def stem (leads : Char → Bool) (lower : Char → Char) (start : List Char) : List Char :=
  let out := ((start.map lower).foldl writeRune ([], false)).1
  if out = [] then [] else led leads out

/-- The name of a plain row shows its namespace and its name. -/
theorem sanitizeName_rawName (hlower : ∀ c, isAlnum c = true ∨ c = '-' → lower c = c)
    (hleads : ∀ c, isLetter c = true → leads c = true) (hmax : 63 ≤ maxLen) {v : Volume}
    (h : Plain start v) :
    sanitizeName leads lower maxLen (rawName start v) =
      stem leads lower start ++ (v.ns.toList ++ '-' :: v.name.toList) := by
  obtain ⟨hns, hnshead, -, hnschars, -⟩ := label_of_validate h.ns
  obtain ⟨hname, hnamehead, hnamelast, hnamechars, hnamepair⟩ := label_of_validate h.name
  have hchars : ∀ c ∈ v.ns.toList ++ '-' :: v.name.toList, isAlnum c = true ∨ c = '-' := by
    simpa [or_imp, forall_and] using ⟨hnschars, hnamechars⟩
  have hpair : ¬ ['-', '-'] <:+: v.ns.toList ++ '-' :: v.name.toList := fun hp => by
    rcases pair_infix_cons.mp (pair_infix_of_append h.joined hp) with ⟨-, hp⟩ | hp
    · exact hnamehead hp
    · exact hnamepair hp
  have hhead : (v.ns.toList ++ '-' :: v.name.toList).head? = v.ns.toList.head? :=
    head?_append_of_ne_nil _ hns
  have hlast : (v.ns.toList ++ '-' :: v.name.toList).getLast? = v.name.toList.getLast? := by
    rw [getLast?_append_of_ne_nil _ (by simp), getLast?_cons_of_ne_nil hname]
  have hfits := h.fits
  have hlong : (v.ns.toList ++ '-' :: v.name.toList).length =
      v.ns.toList.length + v.name.toList.length + 1 := by simp [Nat.add_assoc]
  have hraw : rawName start v = start ++ (v.ns.toList ++ '-' :: v.name.toList) := by
    rw [rawName, append_assoc]
  have hnil : v.ns.toList ++ '-' :: v.name.toList ≠ [] := by simp
  generalize v.ns.toList ++ '-' :: v.name.toList = shown at *
  have hsame : shown.map lower = shown :=
    (map_congr_left fun c hc => hlower c (hchars c hc)).trans (map_id _)
  obtain ⟨out, prevHyphen, hout⟩ :
      ∃ out prevHyphen, (start.map lower).foldl writeRune ([], false) = (out, prevHyphen) :=
    ⟨_, _, rfl⟩
  have hfold : (((rawName start v).map lower).foldl writeRune ([], false)).1 = out ++ shown := by
    rw [hraw, map_append, hsame, foldl_append, hout]
    exact foldl_writeRune hchars hpair fun _ => hhead ▸ hnshead
  have htrim : (out ++ shown).rdropWhile (· = '-') = out ++ shown := by
    refine rdropWhile_eq_self_iff.mpr fun hne hhyphen => hnamelast ?_
    rw [← hlast, ← getLast?_append_of_ne_nil out hnil, getLast?_eq_some_getLast hne,
      of_decide_eq_true hhyphen]
  have hled : led leads (out ++ shown) = stem leads lower start ++ shown := by
    simp only [stem, hout]
    split_ifs with hempty
    · obtain ⟨c, hc, hletter⟩ := h.letter
      rw [hempty, nil_append, led, hhead, hc]
      exact if_pos (hleads c hletter)
    · exact led_append hempty _
  have hlen : (stem leads lower start).length ≤ start.length + 1 := by
    have hle := length_foldl_writeRune (start.map lower) [] false
    rw [hout, length_nil, length_map, Nat.zero_add] at hle
    simp only [stem, led, hout]
    split_ifs
    · simp
    · exact hle.trans (Nat.le_succ _)
    · exact Nat.succ_le_succ hle
  rw [sanitizeName, hfold, htrim, hled]
  refine if_neg (not_lt.mpr (le_trans ?_ hmax))
  rw [length_append]
  omega

/-- Plain rows with the same key are the same row. -/
theorem eq_of_key (hlower : ∀ c, isAlnum c = true ∨ c = '-' → lower c = c) {d : Driver}
    (hd : d ≠ .awsEbs) {v v' : Volume} (h : Plain start v) (h' : Plain start v')
    (hkey : d.key lower start v = d.key lower start v') : v.ns = v'.ns ∧ v.name = v'.name := by
  have hsplit : ∀ {leads maxLen}, (∀ c, isLetter c = true → leads c = true) → 63 ≤ maxLen →
      sanitizeName leads lower maxLen (rawName start v) =
        sanitizeName leads lower maxLen (rawName start v') → v.ns = v'.ns ∧ v.name = v'.name := by
    intro leads maxLen hleads hmax he
    rw [sanitizeName_rawName hlower hleads hmax h, sanitizeName_rawName hlower hleads hmax h'] at he
    have hcut : ∀ {v : Volume}, Plain start v → cut ['-'] (v.ns.toList ++ '-' :: v.name.toList) =
        some (v.ns.toList, v.name.toList) := fun h => cut_append_append h.joined _
    have hsome := (hcut h).symm.trans ((congrArg _ (append_cancel_left he)).trans (hcut h'))
    obtain ⟨hns, hname⟩ := Prod.mk.inj (Option.some.inj hsome)
    exact ⟨String.toList_injective hns, String.toList_injective hname⟩
  cases d with
  | doVolume => exact hsplit (fun _ h => h) (by decide) hkey
  | gcePd => exact hsplit (fun _ h => h) le_rfl hkey
  | hcloudVolume => exact hsplit (fun _ h => by simp_all [isLetter, isAlnum]) (by decide) hkey
  | awsEbs => exact absurd rfl hd

/-- A disk at the provider. -/
structure Disk where
  key : List Char
  id : String

/-- The rows with their handles, and the disks of the account. -/
structure Account where
  rows : List Volume := []
  disks : List Disk := []

/-- What can happen. -/
inductive Account.Step where
  /-- Provision a row; `fresh` is the identifier that the provider gives a new disk. -/
  | provision (v : Volume) (fresh : String)
  /-- Delete a row, with its disk or without. -/
  | remove (v : Volume) (reclaim : Bool)

/-- The disk of a name. -/
def volumeByKey (key : List Char) (disks : List Disk) : Option Disk := disks.find? (·.key = key)

/-- The provider creates a disk, unless there is one under the name. -/
def createDisk (disk : Disk) (disks : List Disk) : Option (List Disk) :=
  if (volumeByKey disk.key disks).isSome then none else some (disk :: disks)

/-- The handle of a row, and the disks that there are then. -/
def Driver.provision (d : Driver) (key : List Char) (fresh : String) (disks : List Disk) :
    Option (String × List Disk) :=
  match d with
  | .doVolume =>
    match createDisk ⟨key, fresh⟩ disks with
    | some disks => some (fresh, disks)
    | none => (volumeByKey key disks).map fun disk => (disk.id, disks)
  | .gcePd =>
    match volumeByKey key disks with
    | some _ => some (String.ofList key, disks)
    | none => some (String.ofList key, ⟨key, String.ofList key⟩ :: disks)
  | .hcloudVolume | .awsEbs =>
    match volumeByKey key disks with
    | some disk => some (disk.id, disks)
    | none => some (fresh, ⟨key, fresh⟩ :: disks)

section

variable (d : Driver) (lower : Char → Char) (start : List Char)

/-- One step, if it is possible. -/
def Account.step (a : Account) : Step → Option Account
  | .provision v fresh =>
    if (∀ r ∈ a.rows, (r.ns, r.name) ≠ (v.ns, v.name)) ∧ ∀ disk ∈ a.disks, disk.id ≠ fresh then
      (d.provision (d.key lower start v) fresh a.disks).map fun p =>
        { rows := { v with handle := p.1 } :: a.rows, disks := p.2 }
    else none
  | .remove v reclaim =>
    if v ∈ a.rows then some {
      rows := a.rows.erase v
      disks := if reclaim then a.disks.filter (·.id ≠ v.handle) else a.disks }
    else none

/-- A row is plain, or with `aws-ebs` has an identifier of its own. -/
def Account.Separate (a : Account) : Step → Prop
  | .provision v _ => if d = .awsEbs then ∀ r ∈ a.rows, r.id ≠ v.id else Plain start v
  | .remove _ _ => True

/-- Every row has its disk, and the keys are apart. -/
structure Account.Inv (a : Account) : Prop where
  placed : ∀ r ∈ a.rows, ⟨d.key lower start r, r.handle⟩ ∈ a.disks
  ids : DistinctKeys Disk.id a.disks
  named : d = .gcePd → ∀ disk ∈ a.disks, disk.id = String.ofList disk.key
  apart : a.rows.Pairwise fun r r' => d.key lower start r ≠ d.key lower start r'
  plain : d ≠ .awsEbs → ∀ r ∈ a.rows, Plain start r

end

variable {d : Driver} {a a' : Account}

/-- Rows with different keys have different disks. -/
theorem Account.Inv.handles (h : a.Inv d lower start) :
    a.rows.Pairwise fun r r' => r.handle ≠ r'.handle := by
  refine h.apart.imp_of_mem fun hr hr' hkey he => hkey ?_
  have hdisk := h.ids.eq_of_key (h.placed _ hr) (h.placed _ hr') he
  exact congrArg Disk.key hdisk

/-- A disk is adopted under its key, or a new one is made. -/
theorem provision_cases {key : List Char} {fresh id : String} {disks disks' : List Disk}
    (hnamed : d = .gcePd → ∀ disk ∈ disks, disk.id = String.ofList disk.key)
    (h : d.provision key fresh disks = some (id, disks')) :
    ⟨key, id⟩ ∈ disks ∧ disks' = disks ∨
      (∀ disk ∈ disks, disk.key ≠ key) ∧ disks' = ⟨key, id⟩ :: disks ∧
        id = if d = .gcePd then String.ofList key else fresh := by
  cases hfind : volumeByKey key disks with
  | some disk =>
    have hmem : disk ∈ disks := mem_of_find?_eq_some hfind
    obtain rfl : disk.key = key := by simpa using find?_some hfind
    cases d <;> simp only [Driver.provision, createDisk, hfind, Option.isSome_some, if_true,
      Option.map_some] at h <;> cases h
    case gcePd.refl => exact .inl ⟨hnamed rfl disk hmem ▸ hmem, rfl⟩
    all_goals exact .inl ⟨hmem, rfl⟩
  | none =>
    refine .inr ⟨by simpa [volumeByKey] using hfind, ?_⟩
    cases d <;> simp only [Driver.provision, createDisk, hfind, Option.isSome_none,
      Bool.false_eq_true, if_false] at h <;> cases h <;> exact ⟨rfl, by simp⟩

/-- A disk is made. -/
theorem Account.Inv.provision (hlower : ∀ c, isAlnum c = true ∨ c = '-' → lower c = c)
    (h : a.Inv d lower start) {v : Volume} {fresh : String}
    (hsep : a.Separate d start (.provision v fresh))
    (hstep : a.step d lower start (.provision v fresh) = some a') : a'.Inv d lower start := by
  obtain ⟨⟨hnew, hfresh⟩, hstep⟩ := Option.ite_none_right_eq_some.mp hstep
  obtain ⟨⟨id, disks⟩, hprov, rfl⟩ := Option.map_eq_some_iff.mp hstep
  have hplain : d ≠ .awsEbs → Plain start v := fun hd => by simpa [Separate, hd] using hsep
  have hother : ∀ r ∈ a.rows, d.key lower start v ≠ d.key lower start r := by
    intro r hr he
    by_cases hd : d = .awsEbs
    · subst hd
      have hids : ∀ r ∈ a.rows, r.id ≠ v.id := by simpa [Separate] using hsep
      exact hids r hr (String.toList_injective he.symm)
    · obtain ⟨hns, hname⟩ := eq_of_key hlower hd (hplain hd) (h.plain hd r hr) he
      exact hnew r hr (by rw [hns, hname])
  have hapart : ({ v with handle := id } :: a.rows).Pairwise fun r r' =>
      d.key lower start r ≠ d.key lower start r' := pairwise_cons.mpr ⟨hother, h.apart⟩
  have hplains : d ≠ .awsEbs → ∀ r ∈ { v with handle := id } :: a.rows, Plain start r :=
    fun hd => forall_mem_cons.mpr ⟨{ hplain hd with }, h.plain hd⟩
  rcases provision_cases h.named hprov with ⟨hadopted, rfl⟩ | ⟨hkey, rfl, hid⟩
  · exact ⟨forall_mem_cons.mpr ⟨hadopted, h.placed⟩, h.ids, h.named, hapart, hplains⟩
  · refine ⟨forall_mem_cons.mpr ⟨mem_cons_self, fun r hr =>
      mem_cons_of_mem _ (h.placed r hr)⟩, nodup_cons.mpr ⟨fun hmem => ?_, h.ids⟩,
      fun hd => forall_mem_cons.mpr ⟨by simpa [hd] using hid, h.named hd⟩, hapart, hplains⟩
    obtain ⟨disk, hdisk, he⟩ := mem_map.mp hmem
    split_ifs at hid with hd
    · rw [h.named hd disk hdisk, hid] at he
      exact hkey disk hdisk (String.ofList_injective he)
    · exact hfresh disk hdisk (he.trans hid)

/-- A disk is removed. -/
theorem Account.Inv.remove (h : a.Inv d lower start) {v : Volume} {reclaim : Bool}
    (hstep : a.step d lower start (.remove v reclaim) = some a') : a'.Inv d lower start := by
  obtain ⟨hmem, hstep⟩ := Option.ite_none_right_eq_some.mp hstep
  cases hstep
  have hrows : ∀ {r}, r ∈ a.rows.erase v → r ∈ a.rows := mem_of_mem_erase
  have hother : ∀ r ∈ a.rows.erase v, r.handle ≠ v.handle := by
    have hperm := (perm_cons_erase hmem).pairwise h.handles fun h => h.symm
    exact fun r hr => ((pairwise_cons.mp hperm).1 r hr).symm
  refine ⟨fun r hr => ?_, ?_, fun hd disk hdisk => ?_, h.apart.sublist erase_sublist,
    fun hd r hr => h.plain hd r (hrows hr)⟩
  · split_ifs
    · exact mem_filter.mpr ⟨h.placed r (hrows hr), decide_eq_true (hother r hr)⟩
    · exact h.placed r (hrows hr)
  · split_ifs
    · exact h.ids.sublist filter_sublist
    · exact h.ids
  · refine h.named hd disk ?_
    split_ifs at hdisk
    · exact (mem_filter.mp hdisk).1
    · exact hdisk

/-- Where the rows are plain, or with `aws-ebs` have identifiers of their own, rows that exist at
the same time have different disks. -/
theorem handles_pairwise_distinct (hlower : ∀ c, isAlnum c = true ∨ c = '-' → lower c = c)
    {acts : List Account.Step} (hrun : exec (Account.step d lower start) {} acts = some a)
    (hsep : Along (Account.step d lower start) (Account.Separate d start) {} acts) :
    a.rows.Pairwise fun r r' => r.handle ≠ r'.handle := by
  have hstart : Account.Inv d lower start {} :=
    ⟨by simp, nodup_nil, by simp, .nil, by simp⟩
  refine Account.Inv.handles
    (exec_invariant_along (fun a act a' h hok hstep => ?_) hstart hsep hrun)
  cases act with
  | provision v fresh => exact h.provision hlower hok hstep
  | remove v reclaim => exact h.remove hstep

/-- The start of the names in the default configuration. -/
def runeStart : List Char := ['r', 'u', 'n', 'e', '-']

/-- Two namespaces each have a volume of the same name. -/
def sameName : List Account.Step :=
  [.provision { ns := "shop", name := "data-1" } "1",
    .provision { ns := "blog", name := "data-1" } "2"]

/-- Two namespaces with a volume of one name. -/
theorem handles_pairwise_distinct_same_name :
    ∃ a, exec (Account.step .gcePd id runeStart) {} sameName = some a ∧ a.rows.length = 2 ∧
      a.rows.Pairwise fun r r' => r.handle ≠ r'.handle := by
  obtain ⟨a, hrun, hlen⟩ : ∃ a, exec (Account.step .gcePd id runeStart) {} sameName = some a ∧
      a.rows.length = 2 := ⟨_, rfl, rfl⟩
  have hplain : ∀ ns, ns = "shop" ∨ ns = "blog" →
      Plain runeStart { ns := ns, name := "data-1" } := by
    rintro _ (rfl | rfl) <;> exact ⟨rfl, rfl, ⟨_, rfl, by decide⟩, by decide, by decide⟩
  have hsep : Along (Account.step .gcePd id runeStart) (Account.Separate .gcePd runeStart) {}
      sameName :=
    ⟨hplain _ (.inl rfl), fun _ _ => ⟨hplain _ (.inr rfl), fun _ _ => trivial⟩⟩
  exact ⟨a, hrun, hlen, handles_pairwise_distinct (fun _ _ => rfl) hrun hsep⟩

/-- A namespace and a name that join to the same text give the second volume the disk of the
first, as does an identifier that two clients supply. -/
theorem disk_shared :
    (∃ a, exec (Account.step .doVolume id runeStart) {}
        [.provision { ns := "a", name := "b-c" } "1", .provision { ns := "a-b", name := "c" } "2"] =
        some a ∧ a.rows.map (·.handle) = ["1", "1"]) ∧
      ∃ a, exec (Account.step .awsEbs id runeStart) {}
        [.provision { id := "x", ns := "a", name := "b" } "1",
          .provision { id := "x", ns := "c", name := "d" } "2"] =
        some a ∧ a.rows.map (·.handle) = ["1", "1"] :=
  ⟨⟨_, rfl, rfl⟩, _, rfl, rfl⟩

end Rune.Disks
