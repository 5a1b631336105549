import Mathlib.Algebra.Order.Ring.Int
import Mathlib.Data.List.Sort
import Mathlib.Data.Nat.Log
import Mathlib.Data.String.Basic

/-!
# Listing and reading

`Get` decodes the stored document into the resource. `List` decodes it into untyped values
first, in which every number is a float64, writes these out again and decodes the result. So the
two agree exactly where every integer of the document comes out of this as it was.
-/

namespace Rune.Store.Listing

open List

/-- Text as characters. -/
abbrev Text := List Char

/-- A document. A float is the shortest text of a float64. -/
inductive Json where
  | null
  | bool (b : Bool)
  | int (n : ℤ)
  | float (shortest : Text)
  | str (s : Text)
  | arr (items : List Json)
  | obj (keys : List Text) (values : List Json)

/-- The nearest float64 to an integer, ties to even. -/
def parseFloat (n : ℕ) : ℕ :=
  if n ≤ 2 ^ 53 then n
  else
    let unit := 2 ^ (Nat.log 2 n - 52)
    let q := n / unit
    let up := unit < 2 * (n % unit) ∨ unit = 2 * (n % unit) ∧ q % 2 = 1
    (if up then q + 1 else q) * unit

/-- The text of an integral float64: all digits up to `2 ^ 53`, where the next float64 is one
away, and above it the fewest digits that are read back. -/
def formatFloat (f : ℕ) : ℕ :=
  if f ≤ 2 ^ 53 then f
  else
    let near k := (f + 10 ^ k / 2) / 10 ^ k * 10 ^ k
    (((range 20).reverse.map near).find? fun d => parseFloat d = f).getD f

/-- An integer that was read as a float64 and written again. -/
def throughFloat (n : ℤ) : ℤ := n.sign * formatFloat (parseFloat n.natAbs)

/-- The assignments to a map, written in the order of the keys. -/
def fields (es : List (Text × Json)) : List (Text × Json) :=
  (es.foldl (fun m e => e :: m.filter (·.1 ≠ e.1)) []).insertionSort (·.1 ≤ ·.1)

mutual

/-- The document with the integers changed and the fields of each object in order. -/
def Json.rewrite (f : ℤ → ℤ) : Json → Json
  | .int n => .int (f n)
  | .arr items => .arr (rewriteAll f items)
  | .obj keys values =>
    let es := fields (keys.zip (rewriteAll f values))
    .obj (es.map Prod.fst) (es.map Prod.snd)
  | j => j

/-- The same for each of a list. -/
def rewriteAll (f : ℤ → ℤ) : List Json → List Json
  | [] => []
  | j :: js => j.rewrite f :: rewriteAll f js

end

/-- The document after it was decoded into untyped values and encoded. -/
def Json.reencode (j : Json) : Json := j.rewrite throughFloat

mutual

/-- The function leaves every integer of the document as it is. -/
def Json.Fixed (f : ℤ → ℤ) : Json → Prop
  | .int n => f n = n
  | .arr items | .obj _ items => AllFixed f items
  | _ => True

/-- `Json.Fixed` for each of the documents. -/
def AllFixed (f : ℤ → ℤ) : List Json → Prop
  | [] => True
  | j :: js => j.Fixed f ∧ AllFixed f js

end

/-- All integers up to `2 ^ 53` come through a float64. -/
theorem throughFloat_eq_self {n : ℤ} (h : n.natAbs ≤ 2 ^ 53) : throughFloat n = n := by
  rw [throughFloat, parseFloat, if_pos h, formatFloat, if_pos h, Int.sign_mul_natAbs]

mutual

/-- A change that leaves the integers as they are only sorts the fields. -/
theorem rewrite_eq_of_fixed {f : ℤ → ℤ} : ∀ {j : Json}, j.Fixed f → j.rewrite f = j.rewrite id
  | .int _, h => congrArg Json.int h
  | .arr _, h => congrArg Json.arr (rewriteAll_eq_of_fixed h)
  | .obj keys values, h => by
    simp only [Json.rewrite]
    rw [rewriteAll_eq_of_fixed h]
  | .null, _ | .bool _, _ | .float _, _ | .str _, _ => rfl

theorem rewriteAll_eq_of_fixed {f : ℤ → ℤ} :
    ∀ {js : List Json}, AllFixed f js → rewriteAll f js = rewriteAll id js
  | [], _ => rfl
  | _ :: _, h => congrArg₂ cons (rewrite_eq_of_fixed h.1) (rewriteAll_eq_of_fixed h.2)

end

/-- The key of a resource. -/
def makeKey (resourceType ns name : Text) : Text := resourceType ++ '/' :: (ns ++ '/' :: name)

/-- What the listed keys start with. -/
def makePrefix (resourceType ns : Text) : Text :=
  if ns = [] ∨ ns = "all".toList ∨ ns = ['*'] then resourceType ++ ['/']
  else resourceType ++ '/' :: (ns ++ ['/'])

/-- How a type of resources is encoded and decoded. The decoder looks the fields of a document up,
so that their order does not matter, and it reads every integer that the encoder has written. -/
structure Codec (T : Type) where
  encode : T → Json
  decode : Json → Option T
  order : ∀ v, decode ((encode v).rewrite id) = decode (encode v)
  reads : ∀ v f, decode ((encode v).rewrite f) = decode (encode v) → (encode v).Fixed f

/-- A document that was decoded into untyped values reads the same exactly if every integer of it
came through. -/
theorem Codec.decode_rewrite_iff {T : Type} (c : Codec T) (v : T) (f : ℤ → ℤ) :
    c.decode ((c.encode v).rewrite f) = c.decode (c.encode v) ↔ (c.encode v).Fixed f := by
  refine ⟨c.reads v f, fun hfixed => ?_⟩
  rw [rewrite_eq_of_fixed hfixed, c.order]

/-- The rows of the database, in the order of an iterator. -/
abbrev Db := List (Text × Json)

variable {T : Type} (codec : Codec T) (db : Db) (resourceType ns : Text)

/-- The row of a resource, given by its name and its value. -/
def stored (r : Text × T) : Text × Json := (makeKey resourceType ns r.1, codec.encode r.2)

/-- `Get`, with the name of the resource. -/
def get (name : Text) : Option T :=
  (db.find? fun row => row.1 = makeKey resourceType ns name).bind fun row => codec.decode row.2

/-- The iterator with the prefix reaches the row. -/
def scanned (row : Text × Json) : Bool := decide (makePrefix resourceType ns <+: row.1)

/-- `List`, with the slice that it fills. -/
def list : Option (List T) :=
  (db.filter (scanned resourceType ns)).mapM fun row => codec.decode row.2.reencode

variable {codec db resourceType ns}

theorem makePrefix_isPrefix (name : Text) :
    makePrefix resourceType ns <+: makeKey resourceType ns name := by
  rw [makePrefix, makeKey]
  split_ifs
  · exact ⟨ns ++ '/' :: name, by simp⟩
  · exact ⟨name, by simp⟩

/-- In a store with these resources of the namespace, a resource is read from its own row. -/
theorem get_eq_decode {rows : List (Text × T)}
    (hdb : db.filter (scanned resourceType ns) = rows.map (stored codec resourceType ns))
    (hnames : (rows.map Prod.fst).Nodup) {r : Text × T} (hr : r ∈ rows) :
    get codec db resourceType ns r.1 = codec.decode (codec.encode r.2) := by
  have hrow : stored codec resourceType ns r ∈ db.filter (scanned resourceType ns) :=
    hdb ▸ mem_map_of_mem hr
  rw [get]
  cases hfind : db.find? fun row => row.1 = makeKey resourceType ns r.1 with
  | none => simpa [stored] using find?_eq_none.mp hfind _ (mem_filter.mp hrow).1
  | some row =>
    have hkey : row.1 = makeKey resourceType ns r.1 := by simpa using find?_some hfind
    have hmem : row ∈ db.filter (scanned resourceType ns) :=
      mem_filter.mpr ⟨mem_of_find?_eq_some hfind, decide_eq_true (hkey ▸ makePrefix_isPrefix r.1)⟩
    rw [hdb] at hmem
    obtain ⟨r', hr', rfl⟩ := mem_map.mp hmem
    have hname : r'.1 = r.1 := by simpa [stored, makeKey] using hkey
    rw [inj_on_of_nodup_map hnames hr' hr hname]
    rfl

theorem isSome_mapM {α β : Type} {f : α → Option β} {l : List α} (h : ∀ a ∈ l, (f a).isSome) :
    (l.mapM f).isSome := by
  induction l with
  | nil => rfl
  | cons a l ih =>
    rw [forall_mem_cons] at h
    obtain ⟨b, hb⟩ := Option.isSome_iff_exists.mp h.1
    obtain ⟨bs, hbs⟩ := Option.isSome_iff_exists.mp (ih h.2)
    simp [mapM_cons, hb, hbs]

/-- Where one of two functions succeeds on the whole list, they agree on the list exactly if they
do so on each element. -/
theorem mapM_eq_mapM_iff {α β : Type} {f g : α → Option β} {l : List α}
    (hg : ∀ a ∈ l, (g a).isSome) : l.mapM f = l.mapM g ↔ ∀ a ∈ l, f a = g a := by
  induction l with
  | nil => simp
  | cons a l ih =>
    rw [forall_mem_cons] at hg ⊢
    obtain ⟨b, hb⟩ := Option.isSome_iff_exists.mp hg.1
    obtain ⟨bs, hbs⟩ := Option.isSome_iff_exists.mp (isSome_mapM hg.2)
    rw [← ih hg.2, mapM_cons, mapM_cons, hb, hbs]
    cases f a <;> cases l.mapM f <;> simp

/-- A record with a size and an age. -/
def recordCodec : Codec (ℤ × ℤ) where
  encode v := .obj ["size".toList, "age".toList] [.int v.1, .int v.2]
  decode
    | .obj keys values =>
      match (keys.zip values).find? (·.1 = "size".toList),
          (keys.zip values).find? (·.1 = "age".toList) with
      | some (_, .int size), some (_, .int age) => some (size, age)
      | _, _ => none
    | _ => none
  order _ := rfl
  reads v f h := by
    obtain ⟨hsize, hage⟩ := Prod.mk.inj (Option.some.inj h)
    exact ⟨hsize, hage, trivial⟩

/-- Two records, one of them with an integer above `2 ^ 53` that a float64 holds. -/
def records : List (Text × (ℤ × ℤ)) := [(['a'], 2 ^ 53 + 2, 7), (['b'], -3, 0)]

end Rune.Store.Listing
