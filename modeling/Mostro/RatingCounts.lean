import Mostro.Ratings
import Mostro.RelyGuarantee

set_option autoImplicit false

/-!
Each order is rated once from each side.  The tables are those a ledger of ratings leaves, one
claimed flag and one counted review for each entry, and every step of the handlers either adds an
entry to the ledger or leaves the tables alone.  The event of a rating, though, is identified by the
trade key of the one who rates.
-/

namespace Mostro.Ratings

open Interleaving SqlTable

def Db.sent (db : Db) (id : Uuid) (buyerSide : Bool) : Bool :=
  db.orders.any fun o => o.id == id && o.sentRate buyerSide

def Db.reviews (db : Db) (pubkey : String) : Option Int :=
  (db.users.find? (·.pubkey == pubkey)).map (·.totalReviews)

structure Db.Rates (ext : Externals) (x : Success) (db db' : Db) : Prop where
  free : affected (claimable x.order x.buyerSide) db.orders = 1
  counted : ∃ u, db.users.find? (·.pubkey == x.rated) = some u ∧
    db' = (db.claim x.order x.buyerSide).vote (ext.updateRating u x.rating)

inductive Ledger (ext : Externals) (db₀ : Db) : List Success → Db → Prop where
  | start : Ledger ext db₀ [] db₀
  | rate {x : Success} {xs : List Success} {db db' : Db} :
      Ledger ext db₀ xs db → db.Rates ext x db' → Ledger ext db₀ (x :: xs) db'

def Success.side (x : Success) : Uuid × Bool := (x.order,x.buyerSide)

def RatedOrder.parties (o : RatedOrder) :
    Uuid × (Bool → Option String) × (Bool → Option String) :=
  (o.id,(o.tradeKey ·),(o.identity ·))

theorem sentRate_setSentRate (o : RatedOrder) (b b' : Bool) :
    (o.setSentRate b).sentRate b' = (b' == b || o.sentRate b') := by
  cases b <;> cases b' <;> simp [RatedOrder.setSentRate,RatedOrder.sentRate]

theorem setSentRate_parties (b : Bool) (o : RatedOrder) :
    (o.setSentRate b).parties = o.parties := by
  cases b <;> rfl

section

variable {db : Db} {id : Uuid} {b : Bool} {o : RatedOrder}

theorem id_of_claimable (h : claimable id b o = true) : o.id = id := by
  simp only [claimable,Bool.and_eq_true,beq_iff_eq] at h
  exact h.1.1

theorem unsent_of_claimable (h : claimable id b o = true) : o.sentRate b = false := by
  simp only [claimable,Bool.and_eq_true,Bool.not_eq_true'] at h
  exact h.1.2

theorem Db.sent_of_claimable (ho : o ∈ db.orders) (h : claimable id b o = true) :
    db.sent id b = false := by
  rw [Db.sent,List.any_eq_false]
  intro q hq hsent
  obtain ⟨hid,hq'⟩ : q.id = id ∧ q.sentRate b = true := by simpa using hsent
  have hqo : q = o :=
    List.inj_on_of_nodup_map db.orders_key hq ho (hid.trans (id_of_claimable h).symm)
  rw [hqo,unsent_of_claimable h] at hq'
  exact Bool.noConfusion hq'

theorem Db.sent_claim (ho : o ∈ db.orders) (h : claimable id b o = true) (id' : Uuid) (b' : Bool) :
    (db.claim id b).sent id' b' = (db.sent id' b' || (id' == id && b' == b)) := by
  rw [Bool.eq_iff_iff]
  simp only [Db.sent,Db.claim,List.any_eq_true,mem_updateWhere,Bool.or_eq_true,Bool.and_eq_true,
    beq_iff_eq]
  constructor
  · rintro ⟨r,⟨q,hq,rfl⟩,hid,hsent⟩
    split at hid
    next hc =>
      rw [if_pos hc,sentRate_setSentRate] at hsent
      rw [setSentRate_id] at hid
      rcases Bool.or_eq_true_iff.mp hsent with hb | hb
      · exact .inr ⟨hid.symm.trans (id_of_claimable hc),by simpa using hb⟩
      · exact .inl ⟨q,hq,hid,hb⟩
    next hc =>
      rw [if_neg hc] at hsent
      exact .inl ⟨q,hq,hid,hsent⟩
  · rintro (⟨q,hq,hid,hsent⟩ | ⟨rfl,rfl⟩)
    · refine ⟨_,⟨q,hq,rfl⟩,?_⟩
      split
      · exact ⟨(setSentRate_id b q).trans hid,by simp [sentRate_setSentRate,hsent]⟩
      · exact ⟨hid,hsent⟩
    · refine ⟨_,⟨o,ho,rfl⟩,?_⟩
      rw [if_pos h]
      exact ⟨(setSentRate_id b' o).trans (id_of_claimable h),by simp [sentRate_setSentRate]⟩

theorem Db.reviews_vote (voted : User) (pubkey : String) :
    (db.vote voted).reviews pubkey =
      (db.reviews pubkey).map fun n => if pubkey = voted.pubkey then voted.totalReviews else n := by
  have hkey : (fun u : User => u.pubkey == pubkey) ∘
      (fun u => if (u.pubkey == voted.pubkey) = true then voted.setRating u else u) =
        fun u => u.pubkey == pubkey := by
    funext u
    simp only [Function.comp_apply]
    split <;> rfl
  simp only [Db.reviews,Db.vote,updateWhere,List.find?_map,hkey,Option.map_map]
  cases hfind : db.users.find? (·.pubkey == pubkey) with
  | none => rfl
  | some u =>
    have hu : u.pubkey = pubkey := by simpa using List.find?_some hfind
    simp only [Option.map_some,Function.comp_apply,hu,beq_iff_eq]
    split <;> rfl

end

section

variable {ext : Externals} {x : Success} {xs : List Success} {db db' db₀ : Db}

theorem Db.Rates.sent (h : db.Rates ext x db') (id : Uuid) (b : Bool) :
    db.sent x.order x.buyerSide = false ∧
      db'.sent id b = (db.sent id b || (id == x.order && b == x.buyerSide)) := by
  obtain ⟨o,ho,hc⟩ := affected_pos.mp (h.free ▸ Nat.one_pos)
  obtain ⟨u,-,rfl⟩ := h.counted
  exact ⟨Db.sent_of_claimable ho hc,Db.sent_claim ho hc id b⟩

theorem Db.Rates.reviews (hext : ext.CountsReview) (h : db.Rates ext x db') (pubkey : String) :
    db'.reviews pubkey =
      (db.reviews pubkey).map fun n => n + if pubkey = x.rated then 1 else 0 := by
  obtain ⟨u,hfind,rfl⟩ := h.counted
  have hu : u.pubkey = x.rated := by simpa using List.find?_some hfind
  obtain ⟨hkey,hcount⟩ := hext u x.rating
  rw [Db.reviews_vote,hkey,hu,hcount]
  change (db.reviews pubkey).map _ = _
  by_cases hp : pubkey = x.rated
  · subst hp
    simp [Db.reviews,hfind]
  · simp [hp]

theorem Db.Rates.parties (h : db.Rates ext x db') :
    db'.orders.map RatedOrder.parties = db.orders.map RatedOrder.parties := by
  obtain ⟨u,-,rfl⟩ := h.counted
  exact map_updateWhere _ fun o _ _ => setSentRate_parties x.buyerSide o

theorem Ledger.sent (h : Ledger ext db₀ xs db) (id : Uuid) (b : Bool) :
    db.sent id b = (db₀.sent id b || decide ((id,b) ∈ xs.map Success.side)) := by
  induction h with
  | start => simp
  | rate _ hx ih =>
    rw [(hx.sent id b).2,ih,Bool.eq_iff_iff]
    simp only [Bool.or_eq_true,Bool.and_eq_true,beq_iff_eq,decide_eq_true_eq,List.map_cons,
      List.mem_cons,Success.side,Prod.mk.injEq]
    tauto

theorem Ledger.nodup (h : Ledger ext db₀ xs db) : (xs.map Success.side).Nodup := by
  induction h with
  | start => exact List.nodup_nil
  | @rate x xs db db' hl hx ih =>
    refine List.nodup_cons.mpr ⟨fun hmem => ?_,ih⟩
    have hfree := (hx.sent x.order x.buyerSide).1
    rw [hl.sent] at hfree
    simp only [Bool.or_eq_false_iff,decide_eq_false_iff_not] at hfree
    exact hfree.2 hmem

theorem Ledger.reviews (hext : ext.CountsReview) (h : Ledger ext db₀ xs db) (pubkey : String) :
    db.reviews pubkey = (db₀.reviews pubkey).map (· + (xs.countP (·.rated == pubkey) : Int)) := by
  induction h with
  | start => simp
  | @rate x xs db db' _ hx ih =>
    rw [hx.reviews hext,ih,Option.map_map]
    congr 1
    funext n
    by_cases hp : pubkey = x.rated
    · subst hp
      simp only [Function.comp_apply,if_true,List.countP_cons,beq_self_eq_true]
      push_cast
      ring
    · have hp' : (x.rated == pubkey) = false := by simpa using fun h => hp h.symm
      simp [hp,hp']

end

/-- The order of the rating has this trade key on the side that rates, and the identity that is
rated on the other. -/
def RatingState.Signs (s : RatingState) (x : Success) (key : String) : Prop :=
  ∃ o ∈ s.db.orders, o.id = x.order ∧ o.tradeKey x.buyerSide = some key ∧
    o.identity (!x.buyerSide) = some x.rated

structure RatingState.Since (l : Rater) (s s' : RatingState) : Prop where
  own : s.holds l = true → s'.tx = s.tx ∧ s'.db = s.db
  free : s.holds l = false → s'.holds l = false
  parties : s'.db.orders.map RatedOrder.parties = s.db.orders.map RatedOrder.parties
  rated : ∀ x ∈ s.rated, x ∈ s'.rated

def RateOp.Pre (ext : Externals) (l : Rater) (op : RateOp) (s : RatingState) : Prop :=
  match op with
  | .claimOrderRatingFlag _ _ => s.holds l = false
  | .commit x => (∃ db, s.tx = some ⟨l,db⟩ ∧ s.db.Rates ext x db) ∧ ∃ key, s.Signs x key
  | .push e => e.success ∈ s.rated ∧ s.Signs e.success e.identifier
  | _ => True

def ratingContract (ext : Externals) : Contract RatingState Rater RateOp where
  Binds _ := True
  Rely := fun l s s' => s.Since l s'
  Known := fun _ _ _ _ => True
  Pre := RateOp.Pre ext
  Idle := fun l s => s.holds l = false

section

variable {ext : Externals} {l l' : Rater} {s s' : RatingState} {x : Success} {key : String}

theorem RatingState.Signs.of_parties (h : s.Signs x key)
    (hp : s'.db.orders.map RatedOrder.parties = s.db.orders.map RatedOrder.parties) :
    s'.Signs x key := by
  obtain ⟨o,ho,hid,hkey,hrated⟩ := h
  obtain ⟨o',ho',heq⟩ := List.mem_map.mp (hp.symm ▸ List.mem_map_of_mem ho)
  simp only [RatedOrder.parties,Prod.mk.injEq] at heq
  exact ⟨o',ho',heq.1.trans hid,(congrFun heq.2.1 _).trans hkey,(congrFun heq.2.2 _).trans hrated⟩

theorem holds_iff : s.holds l = true ↔ ∃ db, s.tx = some ⟨l,db⟩ := by
  cases htx : s.tx with
  | none => simp [RatingState.holds,htx]
  | some tx =>
    obtain ⟨owner,db⟩ := tx
    simp [RatingState.holds,htx]

theorem since_refl (l : Rater) (s : RatingState) : s.Since l s :=
  ⟨fun _ => ⟨rfl,rfl⟩,fun h => h,rfl,fun _ h => h⟩

theorem since_trans {s₁ s₂ s₃ : RatingState} (h : s₁.Since l s₂) (h' : s₂.Since l s₃) :
    s₁.Since l s₃ where
  own := fun ho => by
    obtain ⟨htx,hdb⟩ := h.own ho
    obtain ⟨htx',hdb'⟩ := h'.own (by rw [RatingState.holds,htx]; exact ho)
    exact ⟨htx'.trans htx,hdb'.trans hdb⟩
  free := fun hf => h'.free (h.free hf)
  parties := h'.parties.trans h.parties
  rated := fun y hy => h'.rated y (h.rated y hy)

theorem since_of_same (htx : s'.tx = s.tx) (hdb : s'.db = s.db) (hr : s'.rated = s.rated) :
    s.Since l s' where
  own := fun _ => ⟨htx,hdb⟩
  free := fun h => by rw [RatingState.holds,htx]; exact h
  parties := by rw [hdb]
  rated := fun y hy => hr ▸ hy

theorem since_of_holder (hne : l ≠ l') (hholds : s.holds l = true) (hfree : s'.holds l' = false)
    (hp : s'.db.orders.map RatedOrder.parties = s.db.orders.map RatedOrder.parties)
    (hr : ∀ y ∈ s.rated, y ∈ s'.rated) : s.Since l' s' where
  own := fun h => by
    obtain ⟨db,htx⟩ := holds_iff.mp hholds
    obtain ⟨db',htx'⟩ := holds_iff.mp h
    rw [htx] at htx'
    cases htx'
    exact absurd rfl hne
  free := fun _ => hfree
  parties := hp
  rated := hr

theorem holds_other {op : RateOp} (ch : RateChoice) (hne : l ≠ l') (h : s.holds l' = false) :
    (op.exec l ch s).1.holds l' = false := by
  cases op with
  | claimOrderRatingFlag id b =>
    simp only [RateOp.exec]
    split_ifs
    · exact h
    · simp [RatingState.holds,hne]
  | updateUser u =>
    simp only [RateOp.exec]
    split_ifs
    · exact h
    · split
      · split_ifs
        · simp [RatingState.holds,hne]
        · exact h
      · exact h
  | commit x =>
    simp only [RateOp.exec]
    split
    · split_ifs
      · rfl
      · rfl
      · exact h
    · exact h
  | rollback =>
    simp only [RateOp.exec]
    split_ifs
    · rfl
    · exact h
  | push e =>
    simp only [RateOp.exec]
    split_ifs <;> exact h
  | _ => exact h

theorem since_other {op : RateOp} (ch : RateChoice) (hne : l ≠ l') (hpre : op.Pre ext l s) :
    s.Since l' (op.exec l ch s).1 := by
  cases op with
  | claimOrderRatingFlag id b =>
    simp only [RateOp.exec]
    split_ifs with h
    · exact since_refl _ _
    · have htx : s.tx = none := by simpa using (not_or.mp h).2
      refine ⟨fun ho => ?_,fun _ => by simp [RatingState.holds,hne],rfl,fun _ hy => hy⟩
      simp [RatingState.holds,htx] at ho
  | updateUser u =>
    simp only [RateOp.exec]
    split_ifs
    · exact since_refl _ _
    · split
      next tx htx =>
        split_ifs with ho
        · refine since_of_holder hne ?_ (by simp [RatingState.holds,hne]) rfl fun _ hy => hy
          simp [RatingState.holds,htx,ho]
        · exact since_refl _ _
      next => exact since_refl _ _
  | commit x =>
    obtain ⟨⟨db,htx,hrates⟩,_⟩ := hpre
    have hholds : s.holds l = true := holds_iff.mpr ⟨db,htx⟩
    simp only [RateOp.exec,htx,if_true]
    split_ifs
    · exact since_of_holder hne hholds rfl rfl fun _ hy => hy
    · exact since_of_holder hne hholds rfl hrates.parties fun _ hy => List.mem_cons_of_mem _ hy
  | rollback =>
    simp only [RateOp.exec]
    split_ifs with h
    · exact since_of_holder hne h rfl rfl fun _ hy => hy
    · exact since_refl _ _
  | push e =>
    simp only [RateOp.exec]
    split_ifs <;> exact since_of_same rfl rfl rfl
  | _ => exact since_of_same rfl rfl rfl

end

section

variable {ext : Externals} {l : Rater} {x : Success} {key : String} {α : Type}

theorem sat_op {op : RateOp} {k : op.Res → RateM α} {Q : Except MostroError α → RatingState → Prop}
    {T : RatingState → Prop} {s : RatingState} (hs : T s)
    (hT : ∀ s s', T s → s.Since l s' → T s')
    (h : ∀ s, T s → op.Pre ext l s ∧ ∀ ch,
      (ratings ext).Sat .none (ratingContract ext) l (k (op.exec l ch s).2) Q (op.exec l ch s).1) :
    (ratings ext).Sat .none (ratingContract ext) l (.call op k) Q s := by
  intro s₁ _ hr _
  obtain ⟨hpre,hrest⟩ := h s₁ (hT s s₁ hs hr)
  exact ⟨hpre,fun ch _ => hrest ch⟩

def RatingState.Ready (l : Rater) (x : Success) (key : String) (s : RatingState) : Prop :=
  s.holds l = false ∧ s.Signs x key

theorem RatingState.Ready.since {s s' : RatingState} (h : s.Ready l x key) (hs : s.Since l s') :
    s'.Ready l x key := ⟨hs.free h.1,h.2.of_parties hs.parties⟩

def RatingState.Claimed (l : Rater) (x : Success) (key : String) (s : RatingState) : Prop :=
  s.tx = some ⟨l,s.db.claim x.order x.buyerSide⟩ ∧
    affected (claimable x.order x.buyerSide) s.db.orders = 1 ∧ s.Signs x key

theorem RatingState.Claimed.since {s s' : RatingState} (h : s.Claimed l x key)
    (hs : s.Since l s') : s'.Claimed l x key := by
  obtain ⟨htx,hdb⟩ := hs.own (holds_iff.mpr ⟨_,h.1⟩)
  exact ⟨by rw [htx,hdb]; exact h.1,by rw [hdb]; exact h.2.1,h.2.2.of_parties hs.parties⟩

def RatingState.Voted (ext : Externals) (l : Rater) (x : Success) (key : String)
    (s : RatingState) : Prop :=
  (∃ db, s.tx = some ⟨l,db⟩ ∧ s.db.Rates ext x db) ∧ s.Signs x key

theorem RatingState.Voted.since {s s' : RatingState} (h : s.Voted ext l x key)
    (hs : s.Since l s') : s'.Voted ext l x key := by
  obtain ⟨⟨db,heq,hrates⟩,hsigns⟩ := h
  obtain ⟨htx,hdb⟩ := hs.own (holds_iff.mpr ⟨_,heq⟩)
  exact ⟨⟨db,htx.trans heq,hdb ▸ hrates⟩,hsigns.of_parties hs.parties⟩

def RatingState.Ended (l : Rater) (x : Success) (key : String)
    (r : Except MostroError (Option User))
    (s : RatingState) : Prop :=
  match r with
  | .ok (some _) => s.Ready l x key ∧ x ∈ s.rated
  | _ => True

theorem rateInTransaction_sat {s : RatingState} (hs : s.Ready l x key) :
    (ratings ext).Sat .none (ratingContract ext) l (rateInTransaction ext x)
      (RatingState.Ended l x key) s := by
  refine sat_op hs (fun _ _ => RatingState.Ready.since) fun s hs => ⟨hs.1,fun ch => ?_⟩
  simp only [RateOp.exec]
  split_ifs with hbusy
  · trivial
  by_cases hone : affected (claimable x.order x.buyerSide) s.db.orders = 1
  swap
  · simp only [orFail,beq_eq_false_iff_ne.mpr hone]
    trivial
  simp only [orFail,hone,beq_self_eq_true]
  refine sat_op (T := fun s => s.Claimed l x key) ⟨rfl,hone,hs.2⟩
    (fun _ _ => RatingState.Claimed.since) fun s hs => ⟨trivial,fun ch => ?_⟩
  simp only [RateOp.exec,RatingState.view,hs.1,if_true]
  split_ifs with hfault
  · trivial
  cases hfind : s.db.users.find? (·.pubkey == x.rated) with
  | none =>
    simp only [Db.claim,hfind]
    trivial
  | some u =>
    simp only [Db.claim,hfind,Prog.bind_eq,Prog.ret_bind]
    cases hcheck : checkUserRating ext (ext.updateRating u x.rating) with
    | error e => trivial
    | ok _ =>
      simp only [Prog.ret_bind,Prog.perform_bind]
      refine sat_op (T := fun s => s.Claimed l x key ∧
          s.db.users.find? (·.pubkey == x.rated) = some u) ⟨hs,hfind⟩
        (fun s s' h hr => ⟨h.1.since hr,?_⟩) fun s hs => ⟨trivial,fun ch => ?_⟩
      · rw [(hr.own (holds_iff.mpr ⟨_,h.1.1⟩)).2]
        exact h.2
      simp only [RateOp.exec,hs.1.1,if_true]
      split_ifs with hfault
      · trivial
      refine sat_op (T := fun s => s.Voted ext l x key) ⟨⟨_,rfl,hs.1.2.1,u,hs.2,rfl⟩,hs.1.2.2⟩
        (fun _ _ => RatingState.Voted.since) fun s hs => ⟨⟨hs.1,key,hs.2⟩,fun ch => ?_⟩
      obtain ⟨⟨db,htx,hrates⟩,hsigns⟩ := hs
      simp only [RateOp.exec,htx,if_true]
      split_ifs with hfault
      · trivial
      · exact ⟨⟨rfl,hsigns.of_parties hrates.parties⟩,List.mem_cons_self⟩

theorem rollback_sat {k : Unit → RateM α} {Q : Except MostroError α → RatingState → Prop}
    {s : RatingState}
    (h : ∀ s, s.holds l = false → (ratings ext).Sat .none (ratingContract ext) l (k ()) Q s) :
    (ratings ext).Sat .none (ratingContract ext) l (.call .rollback k) Q s := by
  refine sat_op (T := fun _ => True) trivial (fun _ _ _ _ => trivial) fun s _ =>
    ⟨trivial,fun _ => ?_⟩
  refine h _ ?_
  simp only [RateOp.exec]
  split_ifs with hholds
  · rfl
  · simpa using hholds

theorem updateUserRatingEvent_sat {u : User} {s : RatingState} (hs : s.Ready l x key)
    (hx : x ∈ s.rated) :
    (ratings ext).Sat .none (ratingContract ext) l (updateUserRatingEvent key x u)
      (fun _ s => s.holds l = false) s := by
  have hstable (s s' : RatingState) (h : s.Ready l x key ∧ x ∈ s.rated) (hr : s.Since l s') :
      s'.Ready l x key ∧ x ∈ s'.rated := ⟨h.1.since hr,hr.rated x h.2⟩
  refine sat_op ⟨hs,hx⟩ hstable fun s hs => ⟨trivial,fun _ => ?_⟩
  refine sat_op hs hstable fun s hs => ⟨trivial,fun ch => ?_⟩
  simp only [RateOp.exec]
  split_ifs
  · exact hs.1.1
  · refine sat_op hs hstable fun s hs => ⟨⟨hs.2,hs.1.2⟩,fun _ => ?_⟩
    simp only [RateOp.exec]
    split_ifs <;> exact hs.1.1

theorem applyRating_sat {s : RatingState} (hs : s.Ready l x key) :
    (ratings ext).Sat .none (ratingContract ext) l (applyRating ext key x)
      (fun _ s => s.holds l = false) s := by
  refine sat_op hs (fun _ _ => RatingState.Ready.since) fun s hs => ⟨trivial,fun ch => ?_⟩
  simp only [RateOp.exec]
  split_ifs
  · exact hs.1
  · simp only [Prog.bind_eq,Prog.ret_bind,orFail]
    refine System.Sat.bind (System.Sat.attempt ((rateInTransaction_sat hs).mono ?_))
    intro r s hend
    match r, hend with
    | .ok (some u), hend => exact updateUserRatingEvent_sat hend.1 hend.2
    | .ok none, _ => exact rollback_sat fun s hs => hs
    | .error e, _ => exact rollback_sat fun s hs => hs

theorem tradeKey_of_prepareVariables {sender : String} {o : RatedOrder} {buyer seller : Bool}
    (h : prepareVariablesForVote sender o = .ok (key,buyer,seller)) :
    (buyer = true → o.tradeKey true = some key) ∧
      (seller = true → o.tradeKey false = some key ∧ buyer = false) := by
  unfold prepareVariablesForVote at h
  split at h
  next s b hs hb =>
    split_ifs at h <;> cases h <;> simp [RatedOrder.tradeKey,hs,hb]
  next => cases h

theorem rateOrder_sat (hids : ext.Identifies) {msg : RateMessage} {o : RatedOrder}
    {s : RatingState} (hs : s.holds l = false) (ho : o ∈ s.db.orders) :
    (ratings ext).Sat .none (ratingContract ext) l (rateOrder ext msg o)
      (fun _ s => s.holds l = false) s := by
  unfold rateOrder
  cases hvars : prepareVariablesForVote msg.sender o with
  | error e => exact hs
  | ok vars =>
    obtain ⟨key,buyer,seller⟩ := vars
    obtain ⟨hbuyer,hseller⟩ := tradeKey_of_prepareVariables hvars
    simp only [orFail,Prog.bind_eq,Prog.ret_bind,ensure]
    by_cases hstatus : (o.status == .success || o.status == .settledHoldInvoice && seller) = true
    swap
    · simp only [hstatus]
      exact hs
    simp only [hstatus,if_true,Prog.ret_bind]
    by_cases hskip : (!(!(seller && !o.sellerSentRate) && buyer && !o.buyerSentRate) &&
        !(seller && !o.sellerSentRate)) = true
    · rw [if_pos hskip]
      exact hs
    rw [if_neg hskip]
    cases msg.rating with
    | none => exact hs
    | some rating =>
      cases hprivacy : ext.isFullPrivacyOrder o with
      | none => exact hs
      | some ids =>
        obtain ⟨hbuyerId,hsellerId⟩ := hids o ids.1 ids.2 hprivacy
        simp only [require,Prog.ret_bind]
        cases hrated : if buyer = true then ids.2 else ids.1 with
        | none => exact hs
        | some rated =>
          refine applyRating_sat ⟨hs,o,ho,rfl,?_⟩
          cases hb : !(seller && !o.sellerSentRate) && buyer && !o.buyerSentRate with
          | true =>
            simp only [Bool.and_eq_true] at hb
            rw [if_pos hb.1.2] at hrated
            exact ⟨hbuyer hb.1.2,hsellerId rated hrated⟩
          | false =>
            rw [hb] at hskip
            have hsell : (seller && !o.sellerSentRate) = true := by
              simpa only [Bool.not_false,Bool.true_and,Bool.not_eq_true',
                Bool.not_eq_false] using hskip
            obtain ⟨hkey,hb⟩ := hseller (Bool.and_eq_true_iff.mp hsell).1
            rw [if_neg (by simp [hb])] at hrated
            exact ⟨hkey,hbuyerId rated hrated⟩

theorem updateUserReputationAction_sat (hids : ext.Identifies) {msg : RateMessage}
    {s : RatingState} (hs : s.holds l = false) :
    (ratings ext).Sat .none (ratingContract ext) l (updateUserReputationAction ext msg)
      (fun _ s => s.holds l = false) s := by
  unfold updateUserReputationAction getOrder
  cases msg.orderId with
  | none => exact hs
  | some id =>
    refine sat_op (T := fun s => s.holds l = false) hs (fun _ _ h hr => hr.free h)
      fun s hs => ⟨trivial,fun ch => ?_⟩
    simp only [RateOp.exec]
    split_ifs
    · exact hs
    · cases hfind : s.db.orders.find? (·.id == id) with
      | none => exact hs
      | some o => exact rateOrder_sat hids hs (List.mem_of_find?_eq_some hfind)

theorem jobUpdateRateEvents_sat {s : RatingState} (hs : s.holds l = false) :
    (ratings ext).Sat .none (ratingContract ext) l jobUpdateRateEvents
      (fun _ s => s.holds l = false) s := by
  have hstable (s s' : RatingState) (h : s.holds l = false) (hr : s.Since l s') :
      s'.holds l = false := hr.free h
  refine sat_op hs hstable fun s hs => ⟨trivial,fun _ => ?_⟩
  have hloop : (ratings ext).Sat .none (ratingContract ext) l
      (Prog.forEach s.queue fun e => Prog.perform (RateOp.sendEvent e))
      (fun _ s => s.holds l = false) { s with reading := true } := by
    refine System.Sat.forEach (P := fun s : RatingState => s.holds l = false) hs ?_
    intro e _ s hs
    exact sat_op hs hstable fun s hs => ⟨trivial,fun _ => hs⟩
  simp only [RateOp.exec,Prog.bind_eq,Prog.ret_bind]
  refine System.Sat.bind (hloop.mono ?_)
  intro r s hs
  cases r with
  | error e => exact hs
  | ok _ =>
    refine sat_op hs hstable fun s hs => ⟨trivial,fun _ => ?_⟩
    exact sat_op hs hstable fun s hs => ⟨trivial,fun _ => hs⟩

end

/-- The daemon starts with these tables and an empty queue. -/
def Starts (db₀ : Db) (s : RatingState) : Prop := ∃ now, s = { db := db₀, now }

theorem ratingContract_keeps {ext : Externals} (hids : ext.Identifies) (db₀ : Db) :
    (ratings ext).Keeps .none (ratingContract ext) (Starts db₀) where
  rely_refl := since_refl
  rely_trans _ _ _ _ := since_trans
  distinct l := by simp [ratings]
  init := by
    rintro _ ⟨now,rfl⟩ l _
    rfl
  start := by
    intro l s s' hl l' _ _
    cases hl
    exact ⟨since_refl _ _,fun h => h⟩
  code := by
    intro l s s' _ hidle hl
    cases hl
    cases l with
    | rate _ msg => exact updateUserReputationAction_sat hids hidle
    | updateRateEvents => exact jobUpdateRateEvents_sat hidle
  other := by
    intro l l' op ch ls s hco _ _ _ _ hpre _
    have hne : l ≠ l' := by simpa [ratings] using hco
    exact since_other ch hne (hpre trivial)
  idle := by
    intro l l' op ch ls s hne _ _ _ hidle
    exact holds_other ch hne.symm hidle
  env := by
    intro e ls s s' _ he
    cases he
    exact ⟨fun _ l _ => ⟨fun _ => since_of_same rfl rfl rfl,fun h => h⟩,nofun⟩

/-- The tables are the ledger's, whose ratings are for the other side of their order, and every
event that was pushed or waits to be is about such a rating and carries the trade key of the side
that rated. -/
structure RatingState.Sound (ext : Externals) (db₀ : Db) (s : RatingState) : Prop where
  ledger : Ledger ext db₀ s.rated s.db
  credited : ∀ x ∈ s.rated, ∃ key, s.Signs x key
  events : ∀ e, e ∈ s.pushed ∨ e ∈ s.waiting →
    e.success ∈ s.rated ∧ s.Signs e.success e.identifier

section

variable {ext : Externals} {db₀ : Db} {l : Rater} {s s' : RatingState}

theorem RatingState.Sound.of_same (h : s.Sound ext db₀) (hdb : s'.db = s.db)
    (hr : s'.rated = s.rated)
    (he : ∀ e, e ∈ s'.pushed ∨ e ∈ s'.waiting → e ∈ s.pushed ∨ e ∈ s.waiting) :
    s'.Sound ext db₀ where
  ledger := by
    rw [hr,hdb]
    exact h.ledger
  credited := fun x hx => by
    obtain ⟨key,hsigns⟩ := h.credited x (hr ▸ hx)
    exact ⟨key,hsigns.of_parties (by rw [hdb])⟩
  events := fun e hmem => by
    obtain ⟨hin,hsigns⟩ := h.events e (he e hmem)
    exact ⟨hr ▸ hin,hsigns.of_parties (by rw [hdb])⟩

theorem RatingState.Sound.exec {op : RateOp} (ch : RateChoice) (hpre : op.Pre ext l s)
    (h : s.Sound ext db₀) : (op.exec l ch s).1.Sound ext db₀ := by
  cases op with
  | claimOrderRatingFlag id b =>
    simp only [RateOp.exec]
    split_ifs
    · exact h
    · exact h.of_same rfl rfl fun _ he => he
  | updateUser u =>
    simp only [RateOp.exec]
    split_ifs
    · exact h
    · split
      · split_ifs
        · exact h.of_same rfl rfl fun _ he => he
        · exact h
      · exact h
  | commit x =>
    obtain ⟨⟨db,htx,hrates⟩,key,hsigns⟩ := hpre
    simp only [RateOp.exec,htx,if_true]
    split_ifs
    · exact h.of_same rfl rfl fun _ he => he
    · refine ⟨h.ledger.rate hrates,fun y hy => ?_,fun e he => ?_⟩
      · rcases List.mem_cons.mp hy with rfl | hy
        · exact ⟨key,hsigns.of_parties hrates.parties⟩
        · obtain ⟨key,hsigns⟩ := h.credited y hy
          exact ⟨key,hsigns.of_parties hrates.parties⟩
      obtain ⟨hin,hsigns⟩ := h.events e he
      exact ⟨List.mem_cons_of_mem _ hin,hsigns.of_parties hrates.parties⟩
  | rollback =>
    simp only [RateOp.exec]
    split_ifs
    · exact h.of_same rfl rfl fun _ he => he
    · exact h
  | push e =>
    -- the event enters the queue or waits for it; either way it is the one the task may push
    have hnew : ∀ e', e' = e ∨ e' ∈ s.pushed ∨ e' ∈ s.waiting →
        e'.success ∈ s.rated ∧ s.Signs e'.success e'.identifier := by
      rintro e' (rfl | he')
      · exact hpre
      · exact h.events e' he'
    simp only [RateOp.exec]
    split_ifs
    · refine ⟨h.ledger,h.credited,fun e' he' => hnew e' ?_⟩
      simp only [List.mem_append,List.mem_singleton] at he'
      tauto
    · refine ⟨h.ledger,h.credited,fun e' he' => hnew e' ?_⟩
      simp only [List.mem_append,List.mem_singleton] at he'
      tauto
  | releaseQueue =>
    refine h.of_same rfl rfl fun e he => ?_
    simpa [RateOp.exec] using he
  | _ => exact h.of_same rfl rfl fun _ he => he

theorem sound_reach (hids : ext.Identifies)
    {c : Config RatingState Rater RateOp RateOp.Res MostroError}
    (h : (ratings ext).Reach .none (Starts db₀) c) : c.shared.Sound ext db₀ := by
  refine ((ratingContract_keeps hids db₀).invariant (I := fun s => s.Sound ext db₀)
    (fun _ => trivial) (fun _ _ _ _ _ => trivial) ?_ ?_ ?_ ?_ h).1
  · rintro _ ⟨now,rfl⟩
    exact ⟨.start,by simp,by simp⟩
  · intro l s s' hl hs
    cases hl
    exact hs
  · intro l op ch ls s hpre _ hs
    exact hs.exec ch hpre
  · intro e ls s s' _ he hs
    cases he
    exact hs.of_same rfl rfl fun _ he => he

end

/-- In every run each side's rating of an order is counted once, for the identity of the other side,
and nothing else changes a flag or a user; an event of such a rating is identified by the trade key
of the side that rated, which is the counterpart's only where the two trade keys of the order are
one. -/
theorem ratings_counted_once (ext : Externals) (hext : ext.CountsReview) (hids : ext.Identifies)
    (db₀ : Db) (c : Config RatingState Rater RateOp RateOp.Res MostroError)
    (h : (ratings ext).Reach .none (Starts db₀) c) :
    Ledger ext db₀ c.shared.rated c.shared.db ∧
      (c.shared.rated.map Success.side).Nodup ∧
      (∀ id b, c.shared.db.sent id b =
        (db₀.sent id b || decide ((id,b) ∈ c.shared.rated.map Success.side))) ∧
      (∀ pubkey, c.shared.db.reviews pubkey =
        (db₀.reviews pubkey).map (· + (c.shared.rated.countP (·.rated == pubkey) : Int))) ∧
      (∀ x ∈ c.shared.rated, ∃ o ∈ c.shared.db.orders, o.id = x.order ∧
        o.identity (!x.buyerSide) = some x.rated) ∧
      ∀ e ∈ c.shared.pushed, e.success ∈ c.shared.rated ∧
        ∃ o ∈ c.shared.db.orders, o.id = e.success.order ∧
          (o.tradeKey (!e.success.buyerSide) = some e.identifier ↔
            o.buyerPubkey = o.sellerPubkey) := by
  have hs := sound_reach hids h
  refine ⟨hs.ledger,hs.ledger.nodup,hs.ledger.sent,hs.ledger.reviews hext,fun x hx => ?_,
    fun e he => ?_⟩
  · obtain ⟨_,o,ho,hid,_,hrated⟩ := hs.credited x hx
    exact ⟨o,ho,hid,hrated⟩
  obtain ⟨hin,o,ho,hid,hkey,_⟩ := hs.events e (.inl he)
  refine ⟨hin,o,ho,hid,?_⟩
  rw [← hkey]
  cases e.success.buyerSide with
  | true => exact eq_comm
  | false => exact Iff.rfl

def plainCore : Externals where
  updateRating u rating :=
    { u with
      lastRating := rating, minRating := rating, maxRating := rating
      totalReviews := u.totalReviews + 1, totalRating := rating }
  isFullPrivacyOrder o := some (o.masterBuyerPubkey,o.masterSellerPubkey)
  minRating := 1
  maxRating := 5

def plainKey (c : Char) : String := String.ofList (List.replicate 64 c)

def finishedTrade : Db where
  orders := [{
    id := 1, status := .success, buyerPubkey := some (plainKey 'a')
    sellerPubkey := some (plainKey 'b'), masterBuyerPubkey := some (plainKey 'c')
    masterSellerPubkey := some (plainKey 'd') }]
  users := [{ pubkey := plainKey 'c', createdAt := 1 },{ pubkey := plainKey 'd', createdAt := 1 }]

def buyerRates : List (Event Rater RateChoice Nat) :=
  .start (.rate 0 { orderId := some 1, sender := plainKey 'a', rating := some 5 }) ::
    List.replicate 9 (.step 0 .ok)

theorem plainCore_countsReview : plainCore.CountsReview := fun _ _ => ⟨rfl,rfl⟩

theorem plainCore_identifies : plainCore.Identifies := by
  rintro o buyer seller h
  cases h
  exact ⟨fun _ h => h,fun _ h => h⟩

theorem ratings_counted_once_buyer :
    ∃ c, (ratings plainCore).Reach .none (Starts finishedTrade) c ∧ c.shared.rated.length = 1 ∧
      c.shared.db.reviews (plainKey 'd') = (finishedTrade.reviews (plainKey 'd')).map
        (· + (c.shared.rated.countP (·.rated == plainKey 'd') : Int)) ∧
      ∀ x ∈ c.shared.rated, ∃ o ∈ c.shared.db.orders, o.id = x.order ∧
        o.identity (!x.buyerSide) = some x.rated := by
  have hrun : ∃ c, (ratings plainCore).Reach .none (Starts finishedTrade) c ∧
      c.shared.rated.length = 1 :=
    System.exists_reach_of_play buyerRates ⟨0,rfl⟩ (by decide +kernel)
  obtain ⟨c,hc,hrated⟩ := hrun
  obtain ⟨_,_,_,hreviews,hcredited,_⟩ := ratings_counted_once plainCore plainCore_countsReview
    plainCore_identifies finishedTrade c hc
  exact ⟨c,hc,hrated,hreviews _,hcredited⟩

theorem rating_event_names_sender :
    ∃ c, (ratings plainCore).Reach .none (Starts finishedTrade) c ∧
      ∃ e ∈ c.shared.pushed, ∃ o ∈ c.shared.db.orders, o.id = e.success.order ∧
        o.tradeKey e.success.buyerSide = some e.identifier ∧
        o.tradeKey (!e.success.buyerSide) ≠ some e.identifier :=
  System.exists_reach_of_play buyerRates ⟨0,rfl⟩ (by decide +kernel)

end Mostro.Ratings
