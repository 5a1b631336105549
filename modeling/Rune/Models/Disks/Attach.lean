import Rune.Core.Run

/-!
# Attaching and detaching a cloud disk

The agents of the nodes call `Attach` and `Detach` of the drivers for their own node. Each call asks
the provider where the disk is and which server the node is, and acts on the answers; a question
may fail, and a `Detach` may come long after the disk has moved on.
-/

namespace Rune.Disks

open Rune.Core

/-- How a call of the provider fails. -/
inductive Fault where
  | notFound
  | other
  deriving DecidableEq

/-- Which of the provider's calls fail; those that do not answer correctly. -/
structure Faults where
  getVolume : Option Fault := none
  lookup : Option Fault := none
  action : Option Fault := none
  wait : Option Fault := none

/-- What a driver refuses with. -/
inductive Refusal (Server : Type) where
  | emptyNode
  | getVolume (e : Fault)
  | noServer
  | lookup (e : Fault)
  | elsewhere (servers : List Server)
  | action (e : Fault)
  | wait (e : Fault)

/-- The drivers of cloud disks. -/
inductive Driver where
  | doVolume
  | gcePd
  | hcloudVolume
  | awsEbs
  deriving DecidableEq

/-- A call for a node; `onHost` tells that the device of the disk is there already. -/
inductive Call where
  | attach (node : String) (onHost : Bool) (f : Faults)
  | detach (node : String) (f : Faults)

section

variable {Server : Type} [DecidableEq Server]

/-- The answer of a call, and the servers that the disk is attached to after it. -/
abbrev Outcome (Server : Type) := Except (Refusal Server) Unit × List Server

/-- Go on unless the provider's call failed. -/
def guarded (attached : List Server) (e : Option Fault) (refusal : Fault → Refusal Server)
    (next : Outcome Server) : Outcome Server :=
  match e with
  | some e => (.error (refusal e), attached)
  | none => next

/-- The refusal after a lookup that failed. -/
def unknownServer : Fault → Refusal Server
  | .notFound => .noServer
  | .other => .lookup .other

/-- Attach the disk to the server, unless it is attached. -/
def place (server : Server) (action wait : Option Fault) (attached : List Server) :
    Outcome Server :=
  if server ∈ attached then (.ok (), attached)
  else if attached ≠ [] then (.error (.elsewhere attached), attached)
  else guarded attached action .action <|
    guarded (server :: attached) wait .wait (.ok (), server :: attached)

/-- Detach the disk from the server that is picked; `gone` takes a disk that is not found for a
detached one. -/
def takeOff (pick : Server → Server) (gone : Bool) (getVolume action wait : Option Fault)
    (attached : List Server) : Outcome Server :=
  match getVolume, attached with
  | some .notFound, _ => (.ok (), attached)
  | some e, _ => (.error (.getVolume e), attached)
  | none, [] => (.ok (), attached)
  | none, first :: _ =>
    if gone ∧ action = some .notFound then (.ok (), attached)
    else guarded attached action .action <|
      guarded (attached.erase (pick first)) wait .wait (.ok (), attached.erase (pick first))

variable (serverOf : String → Server) (node : String) (f : Faults) (attached : List Server)

/-- The server of the node, or where it is not found the one that the disk is attached to. -/
def nodeOrFirst (first : Server) : Server :=
  if node ≠ "" ∧ f.lookup = none then serverOf node else first

namespace DoVolume

/-- The device on the host settles it, else the disk is placed. -/
def attach (onHost : Bool) : Outcome Server :=
  if node = "" then (.error .emptyNode, attached)
  else if onHost then (.ok (), attached)
  else guarded attached f.getVolume .getVolume <| guarded attached f.lookup unknownServer <|
    place (serverOf node) f.action f.wait attached

/-- A disk that is not found counts as detached, a failed action does not. -/
def detach : Outcome Server :=
  takeOff (nodeOrFirst serverOf node f) false f.getVolume f.action f.wait attached

end DoVolume

namespace GcePd

/-- The node is looked up first. -/
def attach : Outcome Server :=
  if node = "" then (.error .emptyNode, attached)
  else guarded attached f.lookup unknownServer <| guarded attached f.getVolume .getVolume <|
    place (serverOf node) f.action none attached

/-- A disk that is gone counts as detached. -/
def detach : Outcome Server :=
  takeOff (nodeOrFirst serverOf node f) true f.getVolume f.action none attached

end GcePd

namespace HcloudVolume

/-- The disk is looked up first. -/
def attach : Outcome Server :=
  if node = "" then (.error .emptyNode, attached)
  else guarded attached f.getVolume .getVolume <| guarded attached f.lookup unknownServer <|
    place (serverOf node) f.action f.wait attached

/-- The node is not looked at. -/
def detach : Outcome Server := takeOff id false f.getVolume f.action f.wait attached

end HcloudVolume

namespace AwsEbs

/-- A disk that is attached is waited for. -/
def attach : Outcome Server :=
  if node = "" then (.error .emptyNode, attached)
  else guarded attached f.lookup unknownServer <| guarded attached f.getVolume .getVolume <|
    if serverOf node ∈ attached then guarded attached f.wait .wait (.ok (), attached)
    else place (serverOf node) f.action f.wait attached

/-- A call without an instance detaches the disk from the one that it is attached to. -/
def detach : Outcome Server :=
  takeOff (nodeOrFirst serverOf node f) true f.getVolume f.action f.wait attached

end AwsEbs

/-- Where the disk is attached after a call. -/
def Driver.step (d : Driver) (call : Call) : Option (List Server) :=
  match call with
  | .attach node onHost f => some (match d with
    | .doVolume => DoVolume.attach serverOf node f attached onHost
    | .gcePd => GcePd.attach serverOf node f attached
    | .hcloudVolume => HcloudVolume.attach serverOf node f attached
    | .awsEbs => AwsEbs.attach serverOf node f attached).2
  | .detach node f => some (match d with
    | .doVolume => DoVolume.detach serverOf node f attached
    | .gcePd => GcePd.detach serverOf node f attached
    | .hcloudVolume => HcloudVolume.detach f attached
    | .awsEbs => AwsEbs.detach serverOf node f attached).2

/-- A disk that is attached to another node is detached only by a driver that looks the node up,
and the lookup does not fail. -/
def Driver.Resolves (d : Driver) : Call → Prop
  | .attach _ _ _ => True
  | .detach node f => (∃ s ∈ attached, s ≠ serverOf node) →
      d ≠ .hcloudVolume ∧ node ≠ "" ∧ f.lookup = none

variable {serverOf node f attached}

omit [DecidableEq Server] in
theorem guarded_snd {e : Option Fault} {refusal : Fault → Refusal Server} {next : Outcome Server} :
    (guarded attached e refusal next).2 = attached ∨
      (guarded attached e refusal next).2 = next.2 := by
  cases e with
  | some => exact .inl rfl
  | none => exact .inr rfl

/-- The disk stays where it is, or is put onto the server because it is on none. -/
def Placed (server : Server) (attached : List Server) (o : Outcome Server) : Prop :=
  o.2 = attached ∨ attached = [] ∧ o.2 = [server]

omit [DecidableEq Server] in
theorem Placed.guarded {server : Server} {next : Outcome Server} (h : Placed server attached next)
    (e : Option Fault) (refusal : Fault → Refusal Server) :
    Placed server attached (guarded attached e refusal next) :=
  guarded_snd.elim .inl fun he => by rwa [Placed, he]

/-- An attachment in place. -/
theorem placed_place (server : Server) (action wait : Option Fault) :
    Placed server attached (place server action wait attached) := by
  unfold place
  split_ifs with hthere hother
  · exact .inl rfl
  · exact .inl rfl
  · obtain rfl : attached = [] := not_not.mp hother
    exact guarded_snd.imp_right fun h => ⟨rfl, h.trans (guarded_snd.elim id id)⟩

/-- At most the first server is taken off. -/
theorem takeOff_snd (pick : Server → Server) (gone : Bool) (getVolume action wait : Option Fault) :
    (takeOff pick gone getVolume action wait attached).2 = attached ∨
      ∃ first rest, attached = first :: rest ∧
        (takeOff pick gone getVolume action wait attached).2 = attached.erase (pick first) := by
  unfold takeOff
  split
  · exact .inl rfl
  · exact .inl rfl
  · exact .inl rfl
  · split_ifs
    · exact .inl rfl
    · exact guarded_snd.imp_right fun h => ⟨_, _, rfl, h.trans (guarded_snd.elim id id)⟩

/-- An `Attach` puts the disk onto the server of its node, if anywhere. -/
theorem attach_cases {d : Driver} {onHost : Bool} {after : List Server}
    (hstep : d.step serverOf attached (.attach node onHost f) = some after) :
    after = attached ∨ attached = [] ∧ after = [serverOf node] := by
  have hplace : ∀ wait, Placed (serverOf node) attached
      (place (serverOf node) f.action wait attached) := placed_place (serverOf node) f.action
  cases hstep
  cases d with
  | doVolume =>
    dsimp only [DoVolume.attach]
    split_ifs
    · exact .inl rfl
    · exact .inl rfl
    · exact ((hplace _).guarded ..).guarded ..
  | gcePd =>
    dsimp only [GcePd.attach]
    split_ifs
    · exact .inl rfl
    · exact ((hplace _).guarded ..).guarded ..
  | hcloudVolume =>
    dsimp only [HcloudVolume.attach]
    split_ifs
    · exact .inl rfl
    · exact ((hplace _).guarded ..).guarded ..
  | awsEbs =>
    dsimp only [AwsEbs.attach]
    split_ifs
    · exact .inl rfl
    · have hthere : Placed (serverOf node) attached (.ok (), attached) := .inl rfl
      exact ((hthere.guarded ..).guarded ..).guarded ..
    · exact ((hplace _).guarded ..).guarded ..

/-- A `Detach` takes the disk off a server that is picked: the one it is on or the one of the node,
which the drivers other than `hcloud-volume` look up. -/
theorem detach_eq_takeOff {d : Driver} {after : List Server}
    (hstep : d.step serverOf attached (.detach node f) = some after) :
    ∃ pick gone wait, (∀ s, pick s = s ∨ pick s = serverOf node) ∧
      (d ≠ .hcloudVolume → pick = nodeOrFirst serverOf node f) ∧
      after = (takeOff pick gone f.getVolume f.action wait attached).2 := by
  have hnode : ∀ s, nodeOrFirst serverOf node f s = s ∨
      nodeOrFirst serverOf node f s = serverOf node :=
    fun s => by unfold nodeOrFirst; split_ifs <;> simp
  cases hstep
  cases d with
  | doVolume => exact ⟨_, _, _, hnode, fun _ => rfl, rfl⟩
  | gcePd => exact ⟨_, _, _, hnode, fun _ => rfl, rfl⟩
  | hcloudVolume => exact ⟨_, _, _, fun _ => .inl rfl, absurd rfl, rfl⟩
  | awsEbs => exact ⟨_, _, _, hnode, fun _ => rfl, rfl⟩

/-- A `Detach` takes a disk that is on one server away from there only for the node of it. -/
theorem detach_cases {d : Driver} {after : List Server} (hone : attached.length ≤ 1)
    (hok : d.Resolves serverOf attached (.detach node f))
    (hstep : d.step serverOf attached (.detach node f) = some after) :
    after = attached ∨ attached = [serverOf node] ∧ after = [] := by
  obtain ⟨pick, gone, wait, hpick, hlooked, rfl⟩ := detach_eq_takeOff hstep
  refine (takeOff_snd pick gone f.getVolume f.action wait).elim .inl ?_
  rintro ⟨first, rest, rfl, htake⟩
  obtain rfl : rest = [] := List.length_eq_zero_iff.mp (by simpa using hone)
  rw [htake]
  by_cases hfirst : first = serverOf node
  · have hsame : pick first = first := (hpick first).elim id fun h => h.trans hfirst.symm
    rw [hsame, List.erase_cons_head, hfirst]
    exact .inr ⟨rfl, rfl⟩
  · obtain ⟨hdriver, hname, hlookup⟩ := hok ⟨first, List.mem_cons_self, hfirst⟩
    have hserver : pick first = serverOf node := by
      rw [hlooked hdriver, nodeOrFirst, if_pos ⟨hname, hlookup⟩]
    rw [hserver, List.erase_cons_tail (by simpa using hfirst)]
    exact .inl rfl

/-- Whatever fails, a call leaves the disk on one server at most. -/
theorem step_length {d : Driver} {call : Call} {after : List Server} (hone : attached.length ≤ 1)
    (hstep : d.step serverOf attached call = some after) : after.length ≤ 1 := by
  cases call with
  | attach node onHost f =>
    obtain rfl | ⟨-, rfl⟩ := attach_cases hstep
    · exact hone
    · exact le_rfl
  | detach node f =>
    obtain ⟨pick, gone, wait, -, -, rfl⟩ := detach_eq_takeOff hstep
    rcases takeOff_snd pick gone f.getVolume f.action wait with h | ⟨first, rest, -, h⟩
    · rwa [h]
    · rw [h]
      exact List.length_erase_le.trans hone

/-- In every run the disk is on one server at most. -/
theorem length_le_one {d : Driver} {calls : List Call} {after : List Server}
    (hrun : exec (d.step serverOf) [] calls = some after) : after.length ≤ 1 :=
  exec_invariant (fun _ _ _ h hstep => step_length h hstep) (Nat.zero_le _) hrun

/-- The disk is on one server at most. Where a disk that is on another node is detached only with
the node looked up, a call takes it from the server of a node only if it is a `Detach` for that
node. -/
theorem detached_only_for_own_node {d : Driver} (hinj : Function.Injective serverOf)
    {calls : List Call} {call : Call} {before after : List Server}
    (hrun : exec (d.step serverOf) [] calls = some before)
    (hstep : d.step serverOf before call = some after) :
    after.length ≤ 1 ∧
      (Along (d.step serverOf) (d.Resolves serverOf) [] (calls ++ [call]) →
        ∀ node, serverOf node ∈ before → serverOf node ∉ after →
          ∃ f, call = .detach node f) := by
  have hone := length_le_one hrun
  refine ⟨step_length hone hstep, fun hok node hin hout => ?_⟩
  have hcall := (hok.split hrun).2.1
  cases call with
  | attach node' onHost f =>
    obtain rfl | ⟨rfl, -⟩ := attach_cases hstep
    · exact absurd hin hout
    · cases hin
  | detach node' f =>
    obtain rfl | ⟨rfl, -⟩ := detach_cases hone hcall hstep
    · exact absurd hin hout
    · exact ⟨f, by rw [hinj (List.mem_singleton.mp hin)]⟩

end

/-- The disk moves from one node to another. -/
def moved : List Call := [.attach "a" false {}, .detach "a" {}, .attach "b" false {}]

/-- The disk is then detached from the second node, and from no other. -/
theorem detached_only_for_own_node_moved :
    exec (Driver.awsEbs.step id) [] (moved ++ [.detach "a" {}]) = some ["b"] ∧
      ∃ after, Driver.awsEbs.step id ["b"] (.detach "b" {}) = some after ∧ after.length ≤ 1 ∧
        ∃ f, Call.detach "b" {} = .detach "b" f := by
  have hok : Along (Driver.awsEbs.step id) (Driver.awsEbs.Resolves id) []
      ((moved ++ [.detach "a" {}]) ++ [.detach "b" {}]) := by
    refine Along.of_forall (fun call hcall attached => ?_) _
    rcases call with ⟨node, onHost, f⟩ | ⟨node, f⟩
    · trivial
    · simp only [moved, List.cons_append, List.nil_append, List.mem_cons, Call.detach.injEq,
        List.not_mem_nil, or_false, reduceCtorEq, false_or] at hcall
      rcases hcall with ⟨rfl, rfl⟩ | ⟨rfl, rfl⟩ | ⟨rfl, rfl⟩ <;> exact fun _ => by decide
  have hrun : exec (Driver.awsEbs.step id) [] (moved ++ [.detach "a" {}]) = some ["b"] := by decide
  have hstep : Driver.awsEbs.step id ["b"] (.detach "b" {}) = some [] := by decide
  obtain ⟨hone, hown⟩ := detached_only_for_own_node Function.injective_id hrun hstep
  exact ⟨hrun, _, hstep, hone, hown hok "b" (by decide) (by decide)⟩

/-- A late teardown of the first node takes the disk away from the second one where its lookup
fails; `hcloud-volume` needs no failure for it. -/
theorem detached_from_another_node :
    (exec (Driver.doVolume.step id) [] moved = some ["b"] ∧
      Driver.doVolume.step id ["b"] (.detach "a" { lookup := some .other }) = some []) ∧
    (exec (Driver.gcePd.step id) [] moved = some ["b"] ∧
      Driver.gcePd.step id ["b"] (.detach "a" { lookup := some .other }) = some []) ∧
    (exec (Driver.awsEbs.step id) [] moved = some ["b"] ∧
      Driver.awsEbs.step id ["b"] (.detach "a" { lookup := some .other }) = some []) ∧
    exec (Driver.hcloudVolume.step id) [] moved = some ["b"] ∧
      Driver.hcloudVolume.step id ["b"] (.detach "a" {}) = some [] := by
  decide

end Rune.Disks
