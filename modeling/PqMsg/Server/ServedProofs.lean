/-
What the server proves about a registered user (`get_transparency_proof` in `handlers/transparency.rs`), and what a client makes
of it (`verify_inclusion_proof` in `key_transparency.rs`).

The server looks for the last leaf of the user, builds the tree and the path anew from the rows of its log, and signs the head.

- `served_proof_accepted`: in every run of registrations, rotations and deletions in which identities are logged, a user who is
  registered gets a proof; its leaf has the identity that is stored, under the last version, and a client accepts it.
-/
import PqMsg.Server.Registration
import PqMsg.Transparency.Inclusion

namespace PqMsg.Server

open Lib Transparency List Option

variable {Secret Hash ι : Type} {L : LogPrims Hash} {s : Snapshot} {userId : String}

/-- the leaf that is served is the one of the last event -/
lemma latest_leaf {event : EventRow} (h : (s.eventsOf userId).getLast? = some event) :
    ∃ index, ((transparencyLeaves s).zipIdx.filter fun e => e.1.userId = userId).getLast? = some (event.leaf, index) ∧
      (transparencyLeaves s)[index]? = some event.leaf := by
  have hleaves : ((transparencyLeaves s).zipIdx.filter fun e => e.1.userId = userId).map Prod.fst =
      (s.eventsOf userId).map EventRow.leaf := by
    have hfst := List.filter_map (f := Prod.fst) (p := fun leaf : TransparencyLeaf => decide (leaf.userId = userId))
      (l := (transparencyLeaves s).zipIdx)
    rw [zipIdx_map_fst] at hfst
    refine hfst.symm.trans ?_
    rw [transparencyLeaves, List.filter_map, Snapshot.eventsOf, List.map_map]
    rfl
  have hlast := congrArg getLast? hleaves
  rw [getLast?_map, getLast?_map, h] at hlast
  obtain ⟨⟨leaf, index⟩, hindex, rfl⟩ := map_eq_some_iff.1 hlast
  exact ⟨index, hindex, mem_zipIdx_iff_getElem?.1 (mem_filter.1 (mem_of_getLast? hindex)).1⟩

/-- the proof for a user whose last event is known -/
lemma getTransparencyProof_last [DecidableEq Hash] {event : EventRow} (h : (s.eventsOf userId).getLast? = some event)
    {sign : Bytes → Bytes} {serverPubKey : ByteArr 32} (hsign : ∀ body, L.verify serverPubKey body (sign body) = true) :
    ∃ proof, getTransparencyProof L sign s userId none = .ok proof ∧ proof.leaf = event.leaf ∧
      verifyInclusionProof L (proof.leaf.hash L) proof.inclusionProof proof.signedTreeHead serverPubKey = .ok () := by
  obtain ⟨index, hlatest, hget⟩ := latest_leaf h
  have hhash : ((transparencyLeaves s).map (TransparencyLeaf.hash L))[index]? = some (event.leaf.hash L) := by
    rw [getElem?_map, hget, map_some]
  have hne : transparencyLeaves s ≠ [] := fun hnil => by simp [hnil] at hget
  have hroot := climb_inclusionLoop (L := L) le_rfl hhash
  rw [← buildTreeRoot_eq] at hroot
  have hlt := (List.getElem?_eq_some_iff.1 hhash).1
  have hbuilt : buildInclusionProof L ((transparencyLeaves s).map (TransparencyLeaf.hash L)) index = some ⟨index,
      inclusionLoop L _ ((transparencyLeaves s).map (TransparencyLeaf.hash L)) index⟩ := if_neg (by simp [hne]; simpa using hlt)
  unfold getTransparencyProof
  simp only [if_neg hne, hlatest, treeHead, hroot, orFail, hbuilt, consistencyProofSince, bind, Except.bind]
  exact ⟨_, rfl, rfl, verifyInclusionProof_ok.2 ⟨if_pos (hsign _), rfl⟩⟩

variable [DecidableEq ι] {cfg : Config Secret}

/-- **Served proofs are accepted** -/
theorem served_proof_accepted [DecidableEq Hash] (L : LogPrims Hash) (sign : Bytes → Bytes) (serverPubKey : ByteArr 32)
    (hsign : ∀ body, L.verify serverPubKey body (sign body) = true) (w : World ι) (hw : w.Started) (hc : Consistent w)
    (hreplies : w.replies = []) (ops : List (Op ι))
    (hl : Legal (World.step cfg) (fun w o => OneAtATime w o ∧ LoggedRetry w o) w ops) (userId : String)
    (hsuccess : standing userId (run (World.step cfg) w ops).replies) :
    let now := run (World.step cfg) w ops
    ∃ user event proof, now.tables.committed (.user userId) = some user ∧ event ∈ now.public.eventsOf userId ∧
      event.identity = user.identity ∧ event.version = (now.public.eventsOf userId).length ∧
      getTransparencyProof L sign now.public userId none = .ok proof ∧ proof.leaf = event.leaf ∧
      verifyInclusionProof L (proof.leaf.hash L) proof.inclusionProof proof.signedTreeHead serverPubKey = .ok () := by
  have hrun := run_inv IdentityInv (fun s o hs hok => step_identity cfg hs o hok.1 hok.2) ops (hw.identityInv hc hreplies) hl
  obtain ⟨user, huser, hchain⟩ := hrun.answered userId hsuccess
  obtain ⟨event, hlast, hidentity⟩ := hchain.last
  obtain ⟨proof, hproof⟩ := getTransparencyProof_last (L := L) hlast hsign
  exact ⟨user, event, proof, huser, mem_of_getLast? hlast, hidentity, hchain.lastVersion hlast, hproof⟩

open Transparency.Sample in
/-- a registration and its retry -/
theorem served_proof_accepted_retried :
    let s := (Sample.reach (Sample.registered () "alice" 1 ++ Sample.registered () "alice" 1)).public
    ∃ proof, getTransparencyProof logPrims id s "alice" none = .ok proof ∧
      verifyInclusionProof logPrims (proof.leaf.hash logPrims) proof.inclusionProof proof.signedTreeHead key = .ok () := by
  obtain ⟨-, -, proof, -, -, -, -, hproof, -, haccepted⟩ := served_proof_accepted logPrims id key
    (fun _ => decide_eq_true rfl) World.empty World.empty_started World.empty_consistent rfl
    (Sample.registered () "alice" 1 ++ Sample.registered () "alice" 1)
    (by decide +kernel : Legal (World.step Sample.config) _ _ _) "alice" (by decide +kernel)
  exact ⟨proof, hproof, haccepted⟩

end PqMsg.Server
