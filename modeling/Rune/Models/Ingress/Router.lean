import Rune.Core.Inet
import Mathlib.Data.List.Sort

/-!
# Routes and client CAs by host

The router finds the upstream of a request by its host and the start of its path; the registry
finds the client CAs of a host. Both are keyed by normalized hosts, and both normalize the host
they are asked for. How letters are lowered is a parameter.
-/

namespace Rune.Ingress

open Rune.Core

variable (lower : Char → Char)

/-- A host without its port and without one leading dot, lowered. -/
def normalizeHost (h : String) : String :=
  let front := h.toList.takeWhile (· ≠ ':')
  String.ofList ((if front.head? = some '.' then front.tail else front).map lower)

/-- The upstream of a host, and what a caller has to satisfy to reach it. -/
structure Route where
  host : String
  ns : String
  service : String
  port : ℤ
  path : String := ""
  allowCIDRs : List IPNet := []
  requireClientCert : Bool := false
  deriving DecidableEq

/-- The routes of each normalized host, those with the longest paths first. -/
abbrev Router := String → List Route

/-- The routes that are kept for a normalized host. -/
def keptRoutes (routes : List Route) (h : String) : List Route :=
  (routes.filter fun rt =>
    normalizeHost lower rt.host = h ∧ h ≠ "" ∧ rt.service ≠ "" ∧ rt.port ≠ 0).map
      fun rt => { rt with host := h }

/-- The router holds the routes. In which order those of equal length stand is not determined:
the sort of the source is not stable. -/
def Router.Holds (r : Router) (routes : List Route) : Prop :=
  ∀ h, (r h).Perm (keptRoutes lower routes h) ∧
    (r h).Pairwise fun a b => b.path.utf8ByteSize ≤ a.path.utf8ByteSize

/-- The routes of each host, the longest path first. -/
def Router.apply (routes : List Route) : Router := fun h =>
  (keptRoutes lower routes h).insertionSort fun a b => b.path.utf8ByteSize ≤ a.path.utf8ByteSize

/-- The first route that matches. -/
def Router.findRoute (r : Router) (host path : String) : Option Route :=
  (r (normalizeHost lower host)).find? fun c => c.path = "" ∨ c.path.toList <+: path.toList

/-- The allowlist of the route lets the peer in; an empty one lets every peer in. -/
def Route.peerAllowed (rt : Route) (peer : Option Bytes) : Bool :=
  match rt.allowCIDRs, peer with
  | [], _ => true
  | _, none => false
  | nets, some ip => nets.any fun n => n.contains ip

variable {lower}

/-- What an applied list holds. -/
theorem Router.apply_holds (routes : List Route) : (apply lower routes).Holds lower routes := by
  let r : Route → Route → Prop := fun a b => b.path.utf8ByteSize ≤ a.path.utf8ByteSize
  have : Std.Total r := ⟨fun a b => le_total b.path.utf8ByteSize a.path.utf8ByteSize⟩
  have : IsTrans Route r := ⟨fun a b c hab hbc => Nat.le_trans hbc hab⟩
  exact fun h => ⟨List.perm_insertionSort r _, List.pairwise_insertionSort r _⟩

/-- The route is kept for the host, and its path is a start of the path. -/
def Route.Serves (lower : Char → Char) (rt : Route) (host path : String) : Prop :=
  normalizeHost lower rt.host = normalizeHost lower host ∧ normalizeHost lower host ≠ "" ∧
    rt.service ≠ "" ∧ rt.port ≠ 0 ∧ (rt.path = "" ∨ rt.path.toList <+: path.toList)

section Find

variable {r r' : Router} {routes routes' : List Route} {host path : String} {rt : Route}

namespace Router.Holds

/-- Which routes serve a request. -/
theorem mem_iff (hr : r.Holds lower routes) :
    (rt ∈ r (normalizeHost lower host) ∧ (rt.path = "" ∨ rt.path.toList <+: path.toList)) ↔
      ∃ orig ∈ routes, orig.Serves lower host path ∧
        rt = { orig with host := normalizeHost lower host } := by
  rw [(hr _).1.mem_iff, keptRoutes]
  simp only [List.mem_map, List.mem_filter, decide_eq_true_eq, Route.Serves]
  constructor
  · rintro ⟨⟨orig, ⟨hmem, hhost, hne, hservice, hport⟩, rfl⟩, hpath⟩
    exact ⟨orig, hmem, ⟨hhost, hne, hservice, hport, hpath⟩, rfl⟩
  · rintro ⟨orig, hmem, ⟨hhost, hne, hservice, hport, hpath⟩, rfl⟩
    exact ⟨⟨orig, ⟨hmem, hhost, hne, hservice, hport⟩, rfl⟩, hpath⟩

variable (hr : r.Holds lower routes)
include hr

/-- The route found serves it. -/
theorem serves_of_findRoute (h : r.findRoute lower host path = some rt) :
    ∃ orig ∈ routes, orig.Serves lower host path ∧
      rt = { orig with host := normalizeHost lower host } :=
  hr.mem_iff.mp ⟨List.mem_of_find?_eq_some h, by simpa using List.find?_some h⟩

/-- A route that is found is one of the routes, for the host that was asked for. -/
theorem exists_of_findRoute (h : r.findRoute lower host path = some rt) :
    ∃ orig ∈ routes, normalizeHost lower orig.host = normalizeHost lower host ∧
      rt = { orig with host := normalizeHost lower host } ∧
        (orig.path = "" ∨ orig.path.toList <+: path.toList) := by
  obtain ⟨orig, hin, ⟨hhost, -, -, -, hpath⟩, hrt⟩ := hr.serves_of_findRoute h
  exact ⟨orig, hin, hhost, hrt, hpath⟩

/-- A route is found when one serves it. -/
theorem isSome_iff :
    (r.findRoute lower host path).isSome ↔ ∃ orig ∈ routes, orig.Serves lower host path := by
  constructor
  · intro h
    obtain ⟨rt, hrt⟩ := Option.isSome_iff_exists.mp h
    obtain ⟨orig, hin, hserves, -⟩ := hr.serves_of_findRoute hrt
    exact ⟨orig, hin, hserves⟩
  · rintro ⟨orig, hin, hserves⟩
    obtain ⟨hmem, hpath⟩ := hr.mem_iff.mpr ⟨orig, hin, hserves, rfl⟩
    exact List.find?_isSome.mpr ⟨_, hmem, decide_eq_true hpath⟩

/-- The first match in the order of the lengths is a longest one. -/
theorem longest (h : r.findRoute lower host path = some rt) {orig : Route} (hin : orig ∈ routes)
    (hserves : orig.Serves lower host path) :
    orig.path.utf8ByteSize ≤ rt.path.utf8ByteSize := by
  obtain ⟨hmem, hpath⟩ := hr.mem_iff.mpr ⟨orig, hin, hserves, rfl⟩
  obtain ⟨-, front, back, hsplit, hfront⟩ := List.find?_eq_some_iff_append.mp h
  have hsorted := (hr (normalizeHost lower host)).2
  rw [hsplit] at hmem hsorted
  rcases List.mem_append.mp hmem with hin | hin
  · have hno := hfront _ hin
    simp only [hpath, decide_true, Bool.not_true, Bool.false_eq_true] at hno
  · rcases List.mem_cons.mp hin with rfl | hin
    · exact le_rfl
    · have hle := (List.pairwise_cons.mp (List.pairwise_append.mp hsorted).2.1).1 _ hin
      exact hle

end Router.Holds

/-- Two starts of one text that are of one length are the same. -/
theorem eq_of_starts {a b text : String} (ha : a.toList <+: text.toList)
    (hb : b.toList <+: text.toList) (hsize : a.utf8ByteSize = b.utf8ByteSize) : a = b := by
  have hstart : ∀ {a b : String}, a.toList <+: b.toList → a.utf8ByteSize = b.utf8ByteSize →
      a = b := by
    rintro a b ⟨rest, hrest⟩ hsize
    have hb : b = a ++ String.ofList rest := by
      rw [← @String.ofList_toList b, ← hrest, String.ofList_append, String.ofList_toList]
    rw [hb, String.utf8ByteSize_append] at hsize
    rw [hb, String.utf8ByteSize_eq_zero_iff.mp (by omega : (String.ofList rest).utf8ByteSize = 0),
      String.append_empty]
  rcases List.prefix_or_prefix_of_prefix ha hb with h | h
  · exact hstart h hsize
  · exact (hstart h hsize.symm).symm

/-- Of the routes that serve the request, those with the longest path are the same one, however
their hosts are spelled. -/
def Unambiguous (lower : Char → Char) (routes : List Route) (host path : String) : Prop :=
  ∀ a ∈ routes, ∀ b ∈ routes, a.Serves lower host path → b.Serves lower host path →
    (∀ c ∈ routes, c.Serves lower host path → c.path.utf8ByteSize ≤ a.path.utf8ByteSize) →
    a.path = b.path → { a with host := b.host } = b

/-- An element that goes before everything it is sought with is found where it was inserted. -/
theorem find?_orderedInsert {α : Type*} {p : α → Bool} {r : α → α → Prop} [DecidableRel r] {a : α}
    {l : List α} (ha : p a = true) (hl : ∀ x ∈ l, p x = true → r a x) :
    (l.orderedInsert r a).find? p = some a := by
  induction l with
  | nil => simp [ha]
  | cons x l ih =>
    obtain ⟨hx, hl⟩ := List.forall_mem_cons.mp hl
    by_cases hr : r a x
    · simp [List.orderedInsert, hr, ha]
    · simpa [List.orderedInsert, hr, mt hx hr] using ih hl

/-- Each of the longest routes that serve the request is found in some order. -/
theorem exists_findRoute {orig : Route} (hin : orig ∈ routes)
    (hserves : orig.Serves lower host path) (hmax : ∀ c ∈ routes, c.Serves lower host path →
      c.path.utf8ByteSize ≤ orig.path.utf8ByteSize) :
    ∃ r : Router, r.Holds lower routes ∧
      r.findRoute lower host path = some { orig with host := normalizeHost lower host } := by
  have hall : (Router.apply lower routes).Holds lower routes := Router.apply_holds routes
  set h := normalizeHost lower host
  set kept := { orig with host := h }
  obtain ⟨hmem, hpath⟩ := hall.mem_iff.mpr ⟨orig, hin, hserves, rfl⟩
  let le : Route → Route → Prop := fun a b => b.path.utf8ByteSize ≤ a.path.utf8ByteSize
  have : Std.Total le := ⟨fun a b => le_total b.path.utf8ByteSize a.path.utf8ByteSize⟩
  have : IsTrans Route le := ⟨fun a b c hab hbc => Nat.le_trans hbc hab⟩
  let rest := (Router.apply lower routes h).erase kept
  have hsub : rest.Sublist (Router.apply lower routes h) := List.erase_sublist
  refine ⟨Function.update (Router.apply lower routes) h (rest.orderedInsert le kept), fun h' => ?_,
    ?_⟩
  · by_cases hh : h' = h
    · subst hh
      rw [Function.update_self]
      refine ⟨?_, ((hall h).2.sublist hsub).orderedInsert _ _⟩
      exact (List.perm_orderedInsert _ _ _).trans
        ((List.perm_cons_erase hmem).symm.trans (hall h).1)
    · rw [Function.update_of_ne hh]
      exact hall h'
  · rw [Router.findRoute, Function.update_self]
    refine find?_orderedInsert (decide_eq_true hpath) fun x hx hp => ?_
    obtain ⟨c, hc, hcserves, rfl⟩ := hall.mem_iff.mp ⟨hsub.subset hx, of_decide_eq_true hp⟩
    exact hmax c hc hcserves

/-- Where the longest route that serves a request is one, every router of the routes finds it. -/
theorem Unambiguous.findRoute_eq (huniq : Unambiguous lower routes host path)
    (hr : r.Holds lower routes) (hr' : r'.Holds lower routes) :
    r'.findRoute lower host path = r.findRoute lower host path := by
  cases h : r.findRoute lower host path with
  | none =>
    rw [← Option.not_isSome_iff_eq_none, hr'.isSome_iff, ← hr.isSome_iff, h]
    simp
  | some a =>
    obtain ⟨b, h'⟩ : ∃ b, r'.findRoute lower host path = some b := by
      rw [← Option.isSome_iff_exists, hr'.isSome_iff, ← hr.isSome_iff, h]
      rfl
    obtain ⟨orig, hin, hserves, rfl⟩ := hr.serves_of_findRoute h
    obtain ⟨orig', hin', hserves', rfl⟩ := hr'.serves_of_findRoute h'
    have hstart : ∀ {rt : Route}, rt.Serves lower host path →
        rt.path.toList <+: path.toList := by
      rintro rt ⟨-, -, -, -, he | hp⟩
      · simp [he]
      · exact hp
    have hge := hr.longest h hin' hserves'
    have hle := hr'.longest h' hin hserves
    have hpath : orig'.path = orig.path :=
      eq_of_starts (hstart hserves') (hstart hserves) (hge.antisymm hle)
    rw [h', ← huniq orig' hin' orig hin hserves' hserves (fun _ => hr'.longest h') hpath]

/-- A route is found exactly where one serves the request, and it has the longest path. It is the
same for each order of the routes exactly if the longest route that serves the request is one. -/
theorem findRoute_longest (lower : Char → Char) (routes : List Route) (host path : String) :
    (∀ r : Router, r.Holds lower routes →
      ((r.findRoute lower host path).isSome ↔ ∃ orig ∈ routes, orig.Serves lower host path) ∧
      ∀ rt, r.findRoute lower host path = some rt →
        (∃ orig ∈ routes, orig.Serves lower host path ∧
          rt = { orig with host := normalizeHost lower host }) ∧
        ∀ orig ∈ routes, orig.Serves lower host path →
          orig.path.utf8ByteSize ≤ rt.path.utf8ByteSize) ∧
    ((∀ (routes' : List Route) (r r' : Router), routes.Perm routes' → r.Holds lower routes →
        r'.Holds lower routes' → r'.findRoute lower host path = r.findRoute lower host path) ↔
      Unambiguous lower routes host path) := by
  refine ⟨fun r hr => ⟨hr.isSome_iff, fun rt h =>
    ⟨hr.serves_of_findRoute h, fun orig => hr.longest h⟩⟩, ⟨?_, ?_⟩⟩
  · intro hsame a ha b hb hsa hsb hmax hpath
    obtain ⟨r, hr, hfound⟩ := exists_findRoute ha hsa hmax
    obtain ⟨r', hr', hfound'⟩ := exists_findRoute hb hsb (hpath ▸ hmax)
    have heq := Option.some.inj (hfound'.symm.trans ((hsame _ r r' .rfl hr hr').trans hfound))
    cases a
    cases b
    simp_all
  · intro huniq routes' r r' hperm hr hr'
    refine huniq.findRoute_eq hr fun h => ?_
    exact ⟨(hr' h).1.trans ((hperm.symm.filter _).map _), (hr' h).2⟩

/-- Two services claim one host and path: which of them gets the requests depends on the order in
which the routes were listed. -/
theorem findRoute_follows_order :
    (Router.apply Char.toLower
      [⟨"example.com", "default", "blue", 80, "", [], false⟩,
        ⟨"example.com", "default", "green", 80, "", [], false⟩]).findRoute Char.toLower
      "example.com" "/" = some ⟨"example.com", "default", "blue", 80, "", [], false⟩ ∧
    (Router.apply Char.toLower
      [⟨"example.com", "default", "green", 80, "", [], false⟩,
        ⟨"example.com", "default", "blue", 80, "", [], false⟩]).findRoute Char.toLower
      "example.com" "/" = some ⟨"example.com", "default", "green", 80, "", [], false⟩ := by
  refine ⟨by decide +kernel, by decide +kernel⟩

end Find

/-- An allowed peer is in a listed range. -/
theorem Route.exists_contains_of_peerAllowed {rt : Route} {peer : Option Bytes}
    (h : rt.peerAllowed peer = true) (hnets : rt.allowCIDRs ≠ []) :
    ∃ n ∈ rt.allowCIDRs, ∃ ip, peer = some ip ∧ n.contains ip = true := by
  unfold peerAllowed at h
  split at h
  · exact absurd ‹_› hnets
  · cases h
  · obtain ⟨n, hn, hc⟩ := List.any_eq_true.1 h
    exact ⟨n, hn, _, rfl, hc⟩

/-- The pool of each normalized host that has one. -/
abbrev ClientCARegistry (Pool : Type*) := String → Option Pool

namespace ClientCARegistry

variable {Pool : Type*} (lower) (r : ClientCARegistry Pool)

/-- Register the pool of a host. -/
def set (host : String) (pool : Pool) : ClientCARegistry Pool :=
  if normalizeHost lower host = "" then r
  else Function.update r (normalizeHost lower host) (some pool)

/-- Remove the pool of a host. -/
def forget (host : String) : ClientCARegistry Pool :=
  Function.update r (normalizeHost lower host) none

/-- The pool of a host. -/
def pool (host : String) : Option Pool := r (normalizeHost lower host)

/-- The host has a pool. -/
def hasPool (host : String) : Bool := (r.pool lower host).isSome

end ClientCARegistry

end Rune.Ingress
