import Mathlib.Data.List.Dedup
import Mostro.SharedState

set_option autoImplicit false

/-!
The keys of the open trades and the orders of a returning user.  Both queries list the statuses they
leave out as texts, while the tables hold the texts of `mostro-core`; four of the terminal statuses
are spelled without their hyphens in the lists, and are not left out.
-/

namespace Mostro

def Status.text : Status → String
  | .active => "active"
  | .canceled => "canceled"
  | .canceledByAdmin => "canceled-by-admin"
  | .settledByAdmin => "settled-by-admin"
  | .completedByAdmin => "completed-by-admin"
  | .dispute => "dispute"
  | .expired => "expired"
  | .fiatSent => "fiat-sent"
  | .settledHoldInvoice => "settled-hold-invoice"
  | .pending => "pending"
  | .success => "success"
  | .waitingBuyerInvoice => "waiting-buyer-invoice"
  | .waitingPayment => "waiting-payment"
  | .cooperativelyCanceled => "cooperatively-canceled"
  | .inProgress => "in-progress"
  | .waitingTakerBond => "waiting-taker-bond"
  | .waitingMakerBond => "waiting-maker-bond"

def DisputeStatus.text : DisputeStatus → String
  | .initiated => "initiated"
  | .inProgress => "in-progress"
  | .sellerRefunded => "seller-refunded"
  | .settled => "settled"
  | .released => "released"

def excludedOrderTexts : List String :=
  ["expired","success","canceled","dispute","canceledbyadmin","completedbyadmin",
    "settledbyadmin","cooperativelycanceled"]

def terminalOrderTexts : List String :=
  ["expired","success","canceled","canceledbyadmin","completedbyadmin","settledbyadmin",
    "cooperativelycanceled"]

def activeDisputeTexts : List String := ["initiated","in-progress"]

structure OrderKeys where
  id : Uuid
  status : Status
  buyerPubkey : Option String := none
  sellerPubkey : Option String := none
  creatorPubkey : Option String := none
  masterBuyerPubkey : Option String := none
  masterSellerPubkey : Option String := none
  tradeIndexBuyer : Option Int := none
  tradeIndexSeller : Option Int := none
  deriving DecidableEq, Repr

def OrderKeys.tradeKeys (o : OrderKeys) : List String :=
  [o.buyerPubkey,o.sellerPubkey,o.creatorPubkey].reduceOption

structure DisputeKeys where
  status : DisputeStatus
  solverPubkey : Option String := none
  deriving DecidableEq, Repr

structure KeyTables where
  orders : List OrderKeys
  disputes : List DisputeKeys
  deriving DecidableEq, Repr

/-- A trade index that is NULL in the row is read as zero. -/
structure RestoredOrdersInfo where
  orderId : Uuid
  tradeIndex : Int
  status : String
  deriving DecidableEq, Repr

def findActiveTradePubkeys (t : KeyTables) : List String :=
  let open_ := t.orders.filter fun o => !terminalOrderTexts.contains o.status.text
  let solved := t.disputes.filter fun d => activeDisputeTexts.contains d.status.text
  ((open_.flatMap (·.tradeKeys) ++ solved.filterMap (·.solverPubkey)).filter (· != "")).dedup

def isAsciiHexdigit (c : Char) : Bool :=
  ('0' ≤ c && c ≤ '9') || ('a' ≤ c && c ≤ 'f') || ('A' ≤ c && c ≤ 'F')

def isHexKey (key : String) : Bool := key.toList.all isAsciiHexdigit && key.utf8ByteSize == 64

def findUserOrdersByMasterKey (t : KeyTables) (masterKey : String) :
    Except MostroError (List RestoredOrdersInfo) :=
  if isHexKey masterKey then
    let kept := t.orders.filter fun o => !excludedOrderTexts.contains o.status.text
    .ok ((kept.filter (·.masterBuyerPubkey == some masterKey)).map
          (fun o => ⟨o.id,o.tradeIndexBuyer.getD 0,o.status.text⟩)
      ++ (kept.filter (·.masterSellerPubkey == some masterKey)).map
          (fun o => ⟨o.id,o.tradeIndexSeller.getD 0,o.status.text⟩))
  else .error (.cantDo .invalidPubkey)

variable {t : KeyTables} {key : String}

def KnownKey (t : KeyTables) (key : String) : Prop :=
  key ≠ "" ∧ ((∃ o ∈ t.orders, o.status.isTerminal = false ∧ key ∈ o.tradeKeys) ∨
    ∃ d ∈ t.disputes, (d.status = .initiated ∨ d.status = .inProgress) ∧ d.solverPubkey = some key)

def OrderKeys.Shows (o : OrderKeys) (key : String) (info : RestoredOrdersInfo) : Prop :=
  o.masterBuyerPubkey = some key ∧ info = ⟨o.id,o.tradeIndexBuyer.getD 0,o.status.text⟩ ∨
    o.masterSellerPubkey = some key ∧ info = ⟨o.id,o.tradeIndexSeller.getD 0,o.status.text⟩

def OwnOrder (t : KeyTables) (key : String) (info : RestoredOrdersInfo) : Prop :=
  ∃ o ∈ t.orders, (o.status.isTerminal = false ∧ o.status ≠ .dispute) ∧ o.Shows key info

structure QueriesExact (t : KeyTables) : Prop where
  keys : ∀ key, key ∈ findActiveTradePubkeys t ↔ KnownKey t key
  orders : ∀ key, isHexKey key → ∃ infos, findUserOrdersByMasterKey t key = .ok infos ∧
    ∀ info, info ∈ infos ↔ OwnOrder t key info

/-- The terminal statuses that are stored with a hyphen. -/
def Status.isHyphenated : Status → Bool
  | .canceledByAdmin | .settledByAdmin | .completedByAdmin | .cooperativelyCanceled => true
  | _ => false

theorem notTerminalText_iff (st : Status) : (!terminalOrderTexts.contains st.text) = true ↔
    st.isTerminal = false ∨ st.isHyphenated = true := by
  cases st <;> decide

theorem notExcludedText_iff (st : Status) : (!excludedOrderTexts.contains st.text) = true ↔
    st.isTerminal = false ∧ st ≠ .dispute ∨ st.isHyphenated = true := by
  cases st <;> decide

theorem activeDisputeText_iff (st : DisputeStatus) : activeDisputeTexts.contains st.text = true ↔
    st = .initiated ∨ st = .inProgress := by
  cases st <;> decide

theorem Status.isTerminal_of_hyphenated {st : Status} (h : st.isHyphenated = true) :
    st.isTerminal = true := by
  cases st <;> first | rfl | cases h

theorem Status.text_injective {st st' : Status} (h : st.text = st'.text) : st = st' := by
  cases st <;> cases st' <;> first | rfl | exact absurd h (by decide)

theorem mem_findActiveTradePubkeys : key ∈ findActiveTradePubkeys t ↔
    KnownKey t key ∨
      key ≠ "" ∧ ∃ o ∈ t.orders, o.status.isHyphenated = true ∧ key ∈ o.tradeKeys := by
  simp only [findActiveTradePubkeys,List.mem_dedup,List.mem_filter,List.mem_append,
    List.mem_flatMap,List.mem_filterMap,notTerminalText_iff,activeDisputeText_iff,bne_iff_ne,
    KnownKey]
  constructor
  · rintro ⟨⟨o,⟨ho,hst | hst⟩,hkey⟩ | ⟨d,⟨hd,hst⟩,hkey⟩,hne⟩
    · exact .inl ⟨hne,.inl ⟨o,ho,hst,hkey⟩⟩
    · exact .inr ⟨hne,o,ho,hst,hkey⟩
    · exact .inl ⟨hne,.inr ⟨d,hd,hst,hkey⟩⟩
  · rintro (⟨hne,⟨o,ho,hst,hkey⟩ | ⟨d,hd,hst,hkey⟩⟩ | ⟨hne,o,ho,hst,hkey⟩)
    · exact ⟨.inl ⟨o,⟨ho,.inl hst⟩,hkey⟩,hne⟩
    · exact ⟨.inr ⟨d,⟨hd,hst⟩,hkey⟩,hne⟩
    · exact ⟨.inl ⟨o,⟨ho,.inr hst⟩,hkey⟩,hne⟩

theorem OrderKeys.Shows.status {o : OrderKeys} {info : RestoredOrdersInfo} (h : o.Shows key info) :
    info.status = o.status.text := by
  rcases h with ⟨-,rfl⟩ | ⟨-,rfl⟩ <;> rfl

theorem findUserOrdersByMasterKey_spec (t : KeyTables) (hkey : isHexKey key = true) :
    ∃ infos, findUserOrdersByMasterKey t key = .ok infos ∧ ∀ info, info ∈ infos ↔
      OwnOrder t key info ∨ ∃ o ∈ t.orders, o.status.isHyphenated = true ∧ o.Shows key info := by
  refine ⟨_,if_pos hkey,fun info => ?_⟩
  simp only [List.mem_append,List.mem_map,List.mem_filter,notExcludedText_iff,beq_iff_eq,
    OwnOrder,OrderKeys.Shows]
  constructor
  · rintro (⟨o,⟨⟨ho,hst⟩,hmaster⟩,rfl⟩ | ⟨o,⟨⟨ho,hst⟩,hmaster⟩,rfl⟩)
    · exact hst.imp (fun hst => ⟨o,ho,hst,.inl ⟨hmaster,rfl⟩⟩)
        fun hst => ⟨o,ho,hst,.inl ⟨hmaster,rfl⟩⟩
    · exact hst.imp (fun hst => ⟨o,ho,hst,.inr ⟨hmaster,rfl⟩⟩)
        fun hst => ⟨o,ho,hst,.inr ⟨hmaster,rfl⟩⟩
  · rintro (⟨o,ho,hst,⟨hmaster,rfl⟩ | ⟨hmaster,rfl⟩⟩ |
      ⟨o,ho,hst,⟨hmaster,rfl⟩ | ⟨hmaster,rfl⟩⟩)
    · exact .inl ⟨o,⟨⟨ho,.inl hst⟩,hmaster⟩,rfl⟩
    · exact .inr ⟨o,⟨⟨ho,.inl hst⟩,hmaster⟩,rfl⟩
    · exact .inl ⟨o,⟨⟨ho,.inr hst⟩,hmaster⟩,rfl⟩
    · exact .inr ⟨o,⟨⟨ho,.inr hst⟩,hmaster⟩,rfl⟩

/-- An order closed with a hyphen is nobody's, and its keys are known from elsewhere. -/
def OrderKeys.Unseen (t : KeyTables) (o : OrderKeys) : Prop :=
  (∀ key ∈ o.tradeKeys, key ≠ "" → KnownKey t key) ∧
    ∀ key, isHexKey key → o.masterBuyerPubkey ≠ some key ∧ o.masterSellerPubkey ≠ some key

/-- The queries are exact as long as no order is closed by an administrator or by agreement, apart
from orders whose keys and owners do not show. -/
theorem queries_exact_iff (t : KeyTables) : QueriesExact t ↔
    ∀ o ∈ t.orders, o.status.isHyphenated = true → o.Unseen t := by
  constructor
  · intro h o ho hst
    refine ⟨fun key hkey hne => ?_,fun key hhex => ?_⟩
    · exact (h.keys key).1 (mem_findActiveTradePubkeys.2 (.inr ⟨hne,o,ho,hst,hkey⟩))
    · obtain ⟨infos,heq,hinfos⟩ := h.orders key hhex
      obtain ⟨infos',heq',hinfos'⟩ := findUserOrdersByMasterKey_spec t hhex
      obtain rfl : infos = infos' := Except.ok.inj (heq.symm.trans heq')
      -- a restored row shows the status of its order, which is not one to be restored
      have hnone {info : RestoredOrdersInfo} (hshows : o.Shows key info) : False := by
        obtain ⟨o',-,hopen,hshows'⟩ := (hinfos info).1 ((hinfos' info).2 (.inr ⟨o,ho,hst,hshows⟩))
        have hsame : o'.status = o.status :=
          Status.text_injective (hshows'.status.symm.trans hshows.status)
        simp [hsame,Status.isTerminal_of_hyphenated hst] at hopen
      exact ⟨fun hmaster => hnone (.inl ⟨hmaster,rfl⟩),fun hmaster => hnone (.inr ⟨hmaster,rfl⟩)⟩
  · intro h
    constructor
    · intro key
      rw [mem_findActiveTradePubkeys,or_iff_left_iff_imp]
      rintro ⟨hne,o,ho,hst,hkey⟩
      exact (h o ho hst).1 key hkey hne
    · intro key hhex
      obtain ⟨infos,heq,hinfos⟩ := findUserOrdersByMasterKey_spec t hhex
      refine ⟨infos,heq,fun info => ?_⟩
      rw [hinfos,or_iff_left_iff_imp]
      rintro ⟨o,ho,hst,hshows⟩
      have hmaster := (h o ho hst).2 key hhex
      exact (hshows.elim (fun h => hmaster.1 h.1) fun h => hmaster.2 h.1).elim

def canceledByAdminTable : KeyTables where
  orders := [{
    id := 1, status := .canceledByAdmin, buyerPubkey := some "b0", creatorPubkey := some "b0"
    masterBuyerPubkey :=
      some "00000000000000000000000000000000000000000000000000000000000000b0" }]
  disputes := []

/-- Its trade key is still listed as known, and it is restored as an open order of its buyer. -/
theorem canceled_order_still_known :
    "b0" ∈ findActiveTradePubkeys canceledByAdminTable ∧
      Status.isTerminal .canceledByAdmin = true ∧
      findUserOrdersByMasterKey canceledByAdminTable
        "00000000000000000000000000000000000000000000000000000000000000b0" =
        .ok [⟨1,0,"canceled-by-admin"⟩] := by
  decide +kernel

end Mostro
