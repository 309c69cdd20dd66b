import Mathlib.Data.List.Forall2
import Mostro.CashuToken

set_option autoImplicit false

/-!
What acceptance of an escrow token means under NUT-11.  Each check is inverted once; the spending
paths are then read off the conditions the checks leave.
-/

namespace Mostro.CashuToken

theorem bind_ok {α β : Type} {x : Except Error α} {f : α → Except Error β} {b : β} :
    (x >>= f) = .ok b ↔ ∃ a, x = .ok a ∧ f a = .ok b := by
  cases x with
  | error e => simp [bind,Except.bind]
  | ok a => simp [bind,Except.bind]

theorem require_ok {ok : Bool} {e : Error} {u : Unit} : require ok e = .ok u ↔ ok = true := by
  cases ok <;> simp [require]

theorem orError_ok {α : Type} {x : Option α} {e : Error} {a : α} :
    orError x e = .ok a ↔ x = some a := by
  cases x <;> simp [orError]

theorem forM_ok {α : Type} {l : List α} {f : α → Except Error Unit} {u : Unit} :
    l.forM f = .ok u ↔ ∀ a ∈ l, f a = .ok () := by
  induction l with
  | nil => simp [List.forM,pure,Except.pure]
  | cons a l ih =>
    rw [show (a :: l).forM f = (f a >>= fun _ => l.forM f) from rfl,bind_ok,List.forall_mem_cons,
      ← ih]
    exact ⟨fun ⟨(),ha,hl⟩ => ⟨ha,hl⟩,fun ⟨ha,hl⟩ => ⟨(),ha,hl⟩⟩

theorem rejectRepeats_ok {α : Type} [DecidableEq α] {repeated : α → Error} {seen l : List α}
    {u : Unit} (h : rejectRepeats repeated seen l = .ok u) :
    l.Nodup ∧ ∀ a ∈ l, a ∉ seen := by
  induction l generalizing seen with
  | nil => simp
  | cons a l ih =>
    rw [rejectRepeats] at h
    split at h
    · cases h
    next hseen =>
      obtain ⟨hnodup,hfresh⟩ := ih h
      exact ⟨List.nodup_cons.2 ⟨fun ha => hfresh a ha List.mem_cons_self,hnodup⟩,by grind⟩

theorem eq_of_standardKinds_nodup {tags : List Tag} (h : (standardKinds tags).Nodup)
    {kind : TagKind} (hkind : kind.isCustom = false) {s t : Tag} (hs : s ∈ tags)
    (hsk : tagKind s = some kind) (ht : t ∈ tags) (htk : tagKind t = some kind) : s = t := by
  induction tags with
  | nil => simp at hs
  | cons a tags ih =>
    have hrest : (standardKinds tags).Nodup := by
      refine h.sublist ?_
      exact ((List.sublist_cons_self a tags).filterMap _).filter _
    -- a tag of the kind in the rest repeats the kind of the head
    have hhead : ∀ b ∈ tags, tagKind a = some kind → tagKind b ≠ some kind := by
      intro b hb hak hbk
      have hmem : kind ∈ standardKinds tags :=
        List.mem_filter.2 ⟨List.mem_filterMap.2 ⟨b,hb,hbk⟩,by simp [hkind]⟩
      simp only [standardKinds,List.filterMap_cons,hak] at h hmem
      rw [List.filter_cons_of_pos (by simp [hkind]),List.nodup_cons] at h
      exact h.1 hmem
    rcases List.mem_cons.1 hs with rfl | hs'
    · rcases List.mem_cons.1 ht with rfl | ht'
      · rfl
      · exact absurd htk (hhead t ht' hsk)
    · rcases List.mem_cons.1 ht with rfl | ht'
      · exact absurd hsk (hhead s hs' htk)
      · exact ih hrest hs' ht'

theorem firstTag_honest : TagReader.Honest firstTag where
  mem h := by
    have hkind := List.find?_some h
    exact ⟨List.mem_of_find?_eq_some h,by simpa using hkind⟩
  found hmem hkind := List.find?_isSome.2 ⟨_,hmem,by simpa using hkind⟩

theorem TagReader.Honest.eq_firstTag {read : TagReader} (hread : read.Honest) {tags : List Tag}
    (h : (standardKinds tags).Nodup) {kind : TagKind} (hkind : kind.isCustom = false) :
    read tags kind = firstTag tags kind := by
  cases hr : read tags kind with
  | none =>
    cases hf : firstTag tags kind with
    | none => rfl
    | some t =>
      obtain ⟨hmem,htk⟩ := firstTag_honest.mem hf
      simpa [hr] using hread.found hmem htk
  | some s =>
    obtain ⟨hs,hsk⟩ := hread.mem hr
    obtain ⟨t,hf⟩ := Option.isSome_iff_exists.1 (firstTag_honest.found hs hsk)
    obtain ⟨ht,htk⟩ := firstTag_honest.mem hf
    rw [hf,eq_of_standardKinds_nodup h hkind hs hsk ht htk]

theorem ofSecret_eq_firstTag {codec : Codec} {read : TagReader} (hread : read.Honest)
    {secret : Nut10Secret} (h : rejectDuplicateStandardTags secret = .ok ()) :
    SpendingConditions.ofSecret codec read secret =
      SpendingConditions.ofSecret codec firstTag secret := by
  have htags : secret.tags.bind (Conditions.ofTags codec read) =
      secret.tags.bind (Conditions.ofTags codec firstTag) := by
    cases htags : secret.tags with
    | none => rfl
    | some tags =>
      simp only [rejectDuplicateStandardTags,htags] at h
      have hsame : ∀ kind : TagKind, kind.isCustom = false → read tags kind = firstTag tags kind :=
        fun kind hkind => hread.eq_firstTag (rejectRepeats_ok h).1 hkind
      simp only [Option.bind_some,Conditions.ofTags,tagValue,hsame .locktime rfl,
        hsame .pubkeys rfl,hsame .refund rfl,hsame .nSigs rfl,hsame .sigFlag rfl,
        hsame .nSigsRefund rfl]
  simp only [SpendingConditions.ofSecret,htags]

structure Conditions.Escrows (conditions : Conditions) (data pB pS pM : PublicKey) : Prop where
  numSigs : conditions.numSigs = some 2
  signing : (data :: conditions.pubkeys.getD []).toFinset = {pB, pS, pM}
  refundKeys : conditions.refundKeys = some [pS]
  numSigsRefund : conditions.numSigsRefund.getD 1 = 1

theorem verifySecret_ok {codec : Codec} {pB pS pM : PublicKey} {secret : Secret} {u : Unit}
    (h : verifySecret codec pB pS pM secret = .ok u) :
    ∃ nut10 data conditions, codec.secret secret = some nut10 ∧
      rejectDuplicateStandardTags nut10 = .ok () ∧
      SpendingConditions.ofSecret codec firstTag nut10 =
        some (.p2pkConditions data (some conditions)) ∧
      conditions.Escrows data pB pS pM := by
  simp only [verifySecret,bind_ok,orError_ok] at h
  obtain ⟨nut10,hsecret,⟨⟩,htags,spending,hspending,h⟩ := h
  cases spending with
  | htlcConditions => cases h
  | p2pkConditions data conditions =>
    simp only [bind_ok,orError_ok,require_ok,beq_iff_eq] at h
    obtain ⟨conditions,rfl,⟨⟩,-,⟨⟩,hnum,⟨⟩,-,⟨⟩,hkeys,⟨⟩,-,⟨⟩,hrefund,h⟩ := h
    refine ⟨nut10,data,conditions,hsecret,htags,hspending,hnum,hkeys,hrefund,?_⟩
    cases hn : conditions.numSigsRefund with
    | none => rfl
    | some n =>
      simp only [hn,require_ok,beq_iff_eq] at h
      exact h

theorem Conditions.Escrows.spendable_iff {conditions : Conditions} {data pB pS pM : PublicKey}
    {locktime : Timestamp} (h : conditions.Escrows data pB pS pM)
    (hlocktime : conditions.locktime = some locktime) (signers : Finset PublicKey)
    (now : Timestamp) : conditions.spendable data signers now ↔
      2 ≤ ({pB, pS, pM} ∩ signers).card ∨ locktime < now ∧ pS ∈ signers := by
  have hrefund : 1 ≤ ({pS} ∩ signers).card ↔ pS ∈ signers := by
    by_cases hs : pS ∈ signers <;> simp [hs]
  simp [Conditions.spendable,h.numSigs,h.signing,h.refundKeys,h.numSigsRefund,hlocktime,hrefund]

/-- How the mint spends a proof: by two of the three keys at any time, before the floor by nothing
less, and after the proof's locktime also by the seller's key alone. -/
structure EscrowedProof (codec : Codec) (mint : Mint) (pB pS pM : PublicKey) (floor : Timestamp)
    (p : Proof) : Prop where
  spending : ∃ secret conditions locktime, codec.secret p.secret = some secret ∧
    SpendingConditions.ofSecret codec mint.reader secret = some conditions ∧
    (∀ signers now, now ≤ floor → conditions.spendable signers now →
      2 ≤ ({pB, pS, pM} ∩ signers).card) ∧
    (∀ signers now, 2 ≤ ({pB, pS, pM} ∩ signers).card → conditions.spendable signers now) ∧
    ∀ signers now, conditions.spendable signers now ↔
      2 ≤ ({pB, pS, pM} ∩ signers).card ∨ locktime < now ∧ pS ∈ signers

structure SoundEscrow (codec : Codec) (mint : Mint) (pB pS pM : PublicKey) (amount : Nat)
    (floor : Timestamp) (token : Token) : Prop where
  keys : ({pB, pS, pM} : Finset PublicKey).card = 3
  distinct : token.tokenSecrets.Nodup
  unspent : ∀ p ∈ token.proofs, ∃ y, codec.hashToCurve p.secret = some y ∧
    mint.stateOf y = .unspent
  worth : ∀ p ∈ token.proofs, mint.worth p = some (.sat,p.amount)
  total : (token.proofs.map (·.amount)).sum = amount
  escrowed : ∀ p ∈ token.proofs, EscrowedProof codec mint pB pS pM floor p

variable {codec : Codec} {mint : Mint} {pB pS pM : PublicKey} {floor : Timestamp}

theorem verifySecret_escrowed {p : Proof} {locktime : Timestamp} (hmint : mint.Honest)
    (hverify : verifySecret codec pB pS pM p.secret = .ok ())
    (hlocktime : secretLocktime codec p.secret = some locktime) (hfloor : floor ≤ locktime) :
    EscrowedProof codec mint pB pS pM floor p := by
  obtain ⟨nut10,data,conditions,hsecret,htags,hspending,hescrows⟩ := verifySecret_ok hverify
  have hlock : conditions.locktime = some locktime := by
    simpa [secretLocktime,hsecret,hspending] using hlocktime
  have hiff := hescrows.spendable_iff hlock
  refine ⟨nut10,_,locktime,hsecret,(ofSecret_eq_firstTag hmint.reader htags).trans hspending,
    fun signers now hnow hspend => ?_,fun signers now htwo => (hiff signers now).2 (.inl htwo),hiff⟩
  rcases (hiff signers now).1 hspend with htwo | ⟨hlate,-⟩
  · exact htwo
  · exact absurd hlate (Nat.not_lt.2 (hnow.trans hfloor))

theorem verifyEscrowConditions_ok {str : String} {token : Token}
    (h : verifyEscrowConditions codec str pB pS pM floor = .ok token) :
    ({pB, pS, pM} : Finset PublicKey).card = 3 ∧ ∀ secret ∈ token.tokenSecrets,
      verifySecret codec pB pS pM secret = .ok () ∧
      ∃ locktime, secretLocktime codec secret = some locktime ∧ floor ≤ locktime := by
  simp only [verifyEscrowConditions,verify2of3Condition,bind_ok,orError_ok,require_ok,forM_ok,
    pure,Except.pure,Except.ok.injEq,beq_iff_eq,decide_eq_true_eq] at h
  obtain ⟨_,⟨_,-,⟨⟩,-,⟨⟩,hkeys,⟨⟩,hverify,rfl⟩,⟨⟩,hfloor,rfl⟩ := h
  exact ⟨hkeys,fun secret hsecret => ⟨hverify secret hsecret,hfloor secret hsecret⟩⟩

theorem verifyProofDleq_worth {keysets : List KeySet} {p : Proof} (hmint : mint.Honest)
    (hkeysets : mint.answers.keysets = some keysets)
    (h : verifyProofDleq mint.answers keysets p = .ok ()) :
    mint.worth p = some (.sat,p.amount) := by
  simp only [verifyProofDleq,bind_ok,orError_ok,require_ok,beq_iff_eq] at h
  obtain ⟨keyset,hkeyset,⟨⟩,hunit,key,hkey,hdleq⟩ := h
  rw [hmint.dleq hkeysets (List.mem_of_find?_eq_some hkeyset) hkey hdleq,hunit]

theorem exists_mem_of_mapM {α β : Type} {f : α → Option β} {l : List α} {bs : List β}
    (h : l.mapM f = some bs) {a : α} (ha : a ∈ l) : ∃ b ∈ bs, f a = some b := by
  induction l generalizing bs with
  | nil => cases ha
  | cons x l ih =>
    simp only [List.mapM_cons,Option.bind_eq_bind,Option.bind_eq_some_iff,Option.pure_def,
      Option.some.injEq] at h
    obtain ⟨b,hb,bs,hbs,rfl⟩ := h
    rcases List.mem_cons.1 ha with rfl | ha
    · exact ⟨b,List.mem_cons_self,hb⟩
    · obtain ⟨b',hb',hf⟩ := ih hbs ha
      exact ⟨b',List.mem_cons_of_mem _ hb',hf⟩

theorem unspent_of_states {secrets : List Secret} {ys : List PublicKey} {states : List ProofState}
    (hmint : mint.Honest) (hys : secrets.mapM codec.hashToCurve = some ys)
    (hstates : mint.answers.states ys = some states) (hlength : states.length = ys.length)
    (hall : states.all (· == .unspent)) {secret : Secret} (hsecret : secret ∈ secrets) :
    ∃ y, codec.hashToCurve secret = some y ∧ mint.stateOf y = .unspent := by
  rw [hmint.states hstates hlength] at hall
  obtain ⟨y,hy,hhash⟩ := exists_mem_of_mapM hys hsecret
  refine ⟨y,hhash,?_⟩
  simpa using List.all_eq_true.1 hall _ (List.mem_map_of_mem hy)

/-- An accepted escrow token is sound. -/
theorem accepted_escrow_token_sound (codec : Codec) (mint : Mint) (hmint : mint.Honest)
    (mintUrl : MintUrl) (str : String) (pB pS pM : PublicKey) (amount : Nat) (floor : Timestamp)
    (token : Token)
    (h : verifyEscrowToken codec mint.answers mintUrl str pB pS pM amount floor = .ok token) :
    SoundEscrow codec mint pB pS pM amount floor token := by
  simp only [verifyEscrowToken,verifyTokenDleq,bind_ok,orError_ok,require_ok,forM_ok,pure,
    Except.pure,Except.ok.injEq,beq_iff_eq] at h
  obtain ⟨token,hconditions,_,-,⟨⟩,-,⟨⟩,hproofs,⟨⟩,-,value,hvalue,⟨⟩,rfl,⟨⟩,
    ⟨keysets,hkeysets,hdleq⟩,ys,hys,states,hstates,⟨⟩,hlength,⟨⟩,hall,rfl⟩ := h
  obtain ⟨hkeys,hsecrets⟩ := verifyEscrowConditions_ok hconditions
  have hmem : ∀ p ∈ token.proofs, p.secret ∈ token.tokenSecrets := fun p hp =>
    List.mem_map_of_mem hp
  constructor
  case keys => exact hkeys
  case distinct => exact (rejectRepeats_ok hproofs).1
  case unspent => exact fun p hp => unspent_of_states hmint hys hstates hlength hall (hmem p hp)
  case worth => exact fun p hp => verifyProofDleq_worth hmint hkeysets (hdleq p hp)
  case total =>
    simp only [Token.value] at hvalue
    split at hvalue
    · exact Option.some.inj hvalue
    · cases hvalue
  case escrowed =>
    intro p hp
    obtain ⟨hverify,locktime,hlocktime,hfloor⟩ := hsecrets _ (hmem p hp)
    exact verifySecret_escrowed hmint hverify hlocktime hfloor

def sampleSecret : Nut10Secret where
  kind := .p2pk
  data := "1"
  tags := some [["pubkeys","2","3"],["n_sigs","2"],["locktime","9000"],["refund","2"],
    ["memo"],["memo"]]

def sampleToken : Token :=
  .v4 .sat "mint" [(7,[⟨64,0,"a",11,0⟩,⟨32,0,"b",12,0⟩])]

def sampleCodec : Codec where
  token _ := some sampleToken
  secret _ := some sampleSecret
  key
    | "1" => some 1
    | "2" => some 2
    | "3" => some 3
    | _ => none
  number
    | "2" => some 2
    | "9000" => some 9000
    | _ => none
  hashToCurve s := some s.length

def sampleMint : Mint where
  answers :=
    { keysets := some [⟨7,.sat,fun a => if a = 64 ∨ a = 32 then some a else none⟩]
      states := fun ys => some (ys.map fun _ => .unspent)
      shortId := id
      verifyDleq := fun _ _ => true }
  worth p := some (.sat,p.amount)
  stateOf _ := .unspent
  reader := firstTag

theorem sampleMint_honest : sampleMint.Honest where
  dleq hkeysets hmem _ _ := by
    cases hkeysets
    rw [List.mem_singleton.1 hmem]
    rfl
  states hstates _ := (Option.some.inj hstates).symm
  reader := firstTag_honest

theorem accepted_escrow_token_sound_sample :
    SoundEscrow sampleCodec sampleMint 1 2 3 96 8000 sampleToken :=
  accepted_escrow_token_sound sampleCodec sampleMint sampleMint_honest "mint" "cashuB" 1 2 3
    96 8000 sampleToken (by decide +kernel)

end Mostro.CashuToken
