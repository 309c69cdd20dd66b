import Mathlib.Data.List.Find
import Mostro.TimeoutDuty
import Mostro.WatchedOrders

set_option autoImplicit false

/-!
The slash of a timeout.  The timeout job looks for the bond of the party in default, settles and
slashes it, or records a slice of a range maker's bond.  Where nobody disturbs what the job
watches and the slash is carried out, it ends recorded, or none was due.
-/

namespace Mostro

open Interleaving SqlTable

structure Defaulter where
  order : Uuid
  pubkey : Option Pubkey
  isMaker : Bool
  parent : Option Uuid
  maxAmount : Option Int
  fiatAmount : Int
  deriving DecidableEq

def Order.defaulter (o : Order) (side : Side) : Defaulter where
  order := o.id
  pubkey := sidePubkey o side
  isMaker := sideIsMaker o side
  parent := o.rangeParentId
  maxAmount := o.maxAmount
  fiatAmount := o.fiatAmount

def State.makerBond (s : State) (root : Uuid) : Option Bond :=
  Query.run s (.findBondByOrderAndRole root .maker)

namespace Defaulter

variable (d : Defaulter) (s : State)

def root : Option (Uuid × Option Int) :=
  s.rangeRootFrom maxRangeChainDepth d.order d.parent d.maxAmount

def role : BondRole := if d.isMaker then .maker else .taker

def Home (home : Uuid) : Prop :=
  home = d.order ∨ ∃ root ∈ d.root s, root.2.isSome = true ∧ home = root.1

/-- The bond is the party's.  A taker's carries the taker's key; the maker's is known by its role,
whatever key the maker trades under by now. -/
def Owns (b : Bond) : Prop :=
  d.isMaker = false ∧ b ∈ s.bonds ∧ b.orderId = d.order ∧ b.role = .taker ∧
      d.pubkey = some b.pubkey ∨
    d.isMaker = true ∧ ∃ home, d.Home s home ∧ s.makerBond home = some b

/-- A slash of the party is recorded: on its bond for a timeout, or on the slice. -/
def Recorded : Prop :=
  ∃ b ∈ s.bonds, b.orderId = d.order ∧ b.role = d.role ∧
      (d.isMaker = false → d.pubkey = some b.pubkey) ∧ b.slashedReason = some .timeout ∨
    d.isMaker = true ∧ b.childOrderId = some d.order

def NoShare : Prop :=
  d.isMaker = true ∧ ∃ root ∈ d.root s, root.2.isSome = true ∧ (d.pubkey = none ∨
    ∃ b ∈ s.bonds, b.role = .maker ∧ (b.orderId = d.order ∨ b.orderId = root.1) ∧
      ∀ m ∈ root.2, 0 < m → sliceSlashAmount b d.fiatAmount m ≤ 0)

def Settled : Prop :=
  d.Recorded s ∨ (∀ b, d.Owns s b → b.state ≠ .locked) ∨ d.NoShare s

end Defaulter

/-- The keys tell whose bond it is: a side whose key it carries is the one that posted it, and the
maker's bond carries the maker's key or is filed under the root of a range. -/
def Order.keysBond (o : Order) (b : Bond) : Bool :=
  (([.buyer,.seller] : List Side).all fun side =>
      sidePubkey o side != some b.pubkey || sideIsMaker o side == (b.role == .maker))
    && (b.role == .taker || makerSlicePubkey o == some b.pubkey
      || o.rangeParentId.isNone && o.maxAmount.isSome)

def Op.keysHold (s : State) : Op → Bool
  | .query (.findActiveBondsForOrder id) => s.orders.all fun r => r.order.id != id ||
      s.bonds.all fun b => b.orderId != id || !b.state.isActive || r.order.keysBond b
  | _ => true

/-- The node settles the invoice of a bond of a waiting order when it is asked to, and the
database carries out the slash that follows. -/
def Op.slashLands (ch : Choice) (s : State) : Op → Bool
  | .lnd (.settleHoldInvoice p) =>
      !s.backsWaiting p || (ch == .ok && s.holdState p == some .accepted)
  | .bond (.run (.slash _ _ _ _ _)) => ch != .fault
  | _ => true

theorem keysBond_role {o : Order} {b : Bond} {side : Side} (h : o.keysBond b = true)
    (hkey : sidePubkey o side = some b.pubkey) : b.role = (o.defaulter side).role := by
  have hside := List.all_eq_true.mp (Bool.and_eq_true_iff.mp h).1 side (by cases side <;> simp)
  have hmaker : sideIsMaker o side = (b.role == .maker) := by simpa [hkey] using hside
  rw [Defaulter.role,show (o.defaulter side).isMaker = _ from hmaker]
  cases b.role <;> rfl

theorem makerSlicePubkey_side {o : Order} {side : Side} (h : sideIsMaker o side = true) :
    makerSlicePubkey o = sidePubkey o side := by
  unfold sideIsMaker at h
  unfold makerSlicePubkey
  split at h
  next hkind => rw [hkind]; rfl
  next hkind => rw [hkind]; rfl
  · cases h

theorem keysBond_maker {o : Order} {b : Bond} {side : Side} (h : o.keysBond b = true)
    (hrole : b.role = .maker) (hside : sideIsMaker o side = true) :
    sidePubkey o side = some b.pubkey ∨ o.rangeParentId = none ∧ o.maxAmount.isSome = true := by
  have hkey := (Bool.and_eq_true_iff.mp h).2
  rw [makerSlicePubkey_side hside] at hkey
  simpa [hrole] using hkey

theorem keysBond_congr {o r : Order} (hkind : r.kind = o.kind)
    (hsame : ∀ side, r.defaulter side = o.defaulter side) (b : Bond) :
    r.keysBond b = o.keysBond b := by
  have hkey (side : Side) : sidePubkey r side = sidePubkey o side :=
    congrArg Defaulter.pubkey (hsame side)
  have hmaker (side : Side) : sideIsMaker r side = sideIsMaker o side :=
    congrArg Defaulter.isMaker (hsame side)
  have hslice : makerSlicePubkey r = makerSlicePubkey o := by
    unfold makerSlicePubkey
    rw [hkind]
    cases o.kind
    · exact hkey .buyer
    · exact hkey .seller
  have hparent : r.rangeParentId = o.rangeParentId := congrArg Defaulter.parent (hsame .buyer)
  have hmax : r.maxAmount = o.maxAmount := congrArg Defaulter.maxAmount (hsame .buyer)
  simp only [Order.keysBond,hkey,hmaker,hslice,hparent,hmax]

structure Releasing (X : Bond → Prop) (s s' : State) : Prop where
  orders : s'.orders = s.orders
  hands : ∀ p ∈ s.inHand, p ∈ s'.inHand
  bonds : ∃ f, s'.bonds = s.bonds.map f ∧ ∀ b ∈ s.bonds,
    f b = b ∨ (∃ read, X read ∧ read.id = b.id) ∧ (f b).state = .released ∧ b.SameCore (f b)

theorem makerBond_eq (s : State) (root : Uuid) : s.makerBond root =
    (s.bondsAt root).find? fun b => b.orderId == root && b.role == .maker
      && b.parentBondId.isNone := by
  rw [State.bondsAt,List.find?_filter]
  refine List.find?_congr fun b _ => ?_
  rw [Bool.eq_iff_iff]
  simp +contextual [and_assoc]

section

variable {tid : Nat} {s s' : State} {d : Defaulter} {X : Bond → Prop} {b : Bond} {b₀ : Bond}

theorem Undisturbed.makerBond (h : Undisturbed tid s s') {root : Uuid}
    (hw : s.watches tid root = true) : s'.makerBond root = s.makerBond root := by
  rw [makerBond_eq,makerBond_eq,h.bonds root hw]

theorem makerBond_map {f : Bond → Bond} (hf : s'.bonds = s.bonds.map f)
    (hcore : ∀ b ∈ s.bonds, b.SameCore (f b)) (root : Uuid) :
    s'.makerBond root = (s.makerBond root).map f := by
  simp only [State.makerBond,Query.run,hf,List.find?_map]
  refine congrArg _ (List.find?_congr fun b hb => ?_)
  simp [(hcore b hb).orderId,(hcore b hb).role,(hcore b hb).parentBondId]

theorem Releasing.core {f : Bond → Bond} (h : ∀ b ∈ s.bonds, f b = b ∨
    (∃ read, X read ∧ read.id = b.id) ∧ (f b).state = .released ∧ b.SameCore (f b)) :
    ∀ b ∈ s.bonds, b.SameCore (f b) := by
  intro b hb
  rcases h b hb with h | h
  · rw [h]
    exact .rfl
  · exact h.2.2

/-- What the job knows about a party in default: its slash is recorded, it has no bond to look
for, or the job has followed the range and found none to slash. -/
def Handled (tid : Nat) (d : Defaulter) (s : State) : Prop :=
  d.Recorded s ∨ d.pubkey = none ∧ d.isMaker = false ∨
    (∃ root, s.RootKnown tid maxRangeChainDepth d.order d.parent d.maxAmount root) ∧
      ((∀ b, d.Owns s b → b.state ≠ .locked) ∨ d.NoShare s)

theorem Handled.settled (h : Handled tid d s) : d.Settled s := by
  rcases h with h | ⟨hkey,hmaker⟩ | ⟨_,h⟩
  · exact .inl h
  · refine .inr (.inl fun b hb => ?_)
    rcases hb with ⟨_,_,_,_,hb⟩ | ⟨hb,_⟩
    · exact nomatch hkey.symm.trans hb
    · exact nomatch hmaker.symm.trans hb
  · exact .inr h

theorem Recorded.kept (hk : Undisturbed tid s s') (hw : s.watches tid d.order = true)
    (h : d.Recorded s) : d.Recorded s' := by
  obtain ⟨b,hb,h⟩ := h
  exact ⟨b,(hk.mem_bonds hw (h.imp And.left And.right)).mpr hb,h⟩

theorem Undisturbed.root (hk : Undisturbed tid s s') {root : Uuid × Option Int}
    (hr : s.RootKnown tid maxRangeChainDepth d.order d.parent d.maxAmount root) :
    d.root s' = some root ∧ d.root s = some root := ⟨(hr.kept hk).eq,hr.eq⟩

theorem Undisturbed.owns (hk : Undisturbed tid s s') (hw : s.watches tid d.order = true)
    {root : Uuid × Option Int}
    (hr : s.RootKnown tid maxRangeChainDepth d.order d.parent d.maxAmount root) :
    d.Owns s' b ↔ d.Owns s b := by
  obtain ⟨h',h⟩ := hk.root hr
  have hhome : ∀ home, d.Home s' home ↔ d.Home s home := fun home => by
    simp only [Defaulter.Home,h,h']
  have hbond : ∀ home, d.Home s home → s'.makerBond home = s.makerBond home := by
    rintro home (rfl | ⟨root',hroot,_,rfl⟩)
    · exact hk.makerBond hw
    · cases h.symm.trans hroot
      exact hk.makerBond (hr.watches hw)
  refine or_congr ⟨?_,?_⟩ (and_congr_right fun _ => exists_congr fun home => ?_)
  · rintro ⟨hmaker,hb,hid,hrest⟩
    exact ⟨hmaker,(hk.mem_bonds hw (.inl hid)).mp hb,hid,hrest⟩
  · rintro ⟨hmaker,hb,hid,hrest⟩
    exact ⟨hmaker,(hk.mem_bonds hw (.inl hid)).mpr hb,hid,hrest⟩
  · rw [hhome]
    exact and_congr_right fun hhome => by rw [hbond home hhome]

theorem NoShare.kept (hk : Undisturbed tid s s') (hw : s.watches tid d.order = true)
    {root : Uuid × Option Int}
    (hr : s.RootKnown tid maxRangeChainDepth d.order d.parent d.maxAmount root)
    (h : d.NoShare s) : d.NoShare s' := by
  obtain ⟨hmaker,root',hroot,hmax,h⟩ := h
  obtain ⟨h',heq⟩ := hk.root hr
  cases heq.symm.trans hroot
  refine ⟨hmaker,root,h',hmax,h.imp_right ?_⟩
  rintro ⟨b,hb,hrole,hid,hshare⟩
  refine ⟨b,?_,hrole,hid,hshare⟩
  rcases hid with hid | hid
  · exact (hk.mem_bonds hw (.inl hid)).mpr hb
  · exact (hk.mem_bonds (hr.watches hw) (.inl hid)).mpr hb

theorem Handled.kept (hk : Undisturbed tid s s') (hw : s.watches tid d.order = true)
    (h : Handled tid d s) : Handled tid d s' := by
  rcases h with h | h | ⟨⟨root,hr⟩,h⟩
  · exact .inl (Recorded.kept hk hw h)
  · exact .inr (.inl h)
  · exact .inr (.inr ⟨⟨root,hr.kept hk⟩,h.imp (fun h b hb => h b ((hk.owns hw hr).mp hb))
      (NoShare.kept hk hw hr)⟩)

theorem Releasing.rootKnown (h : Releasing X s s') {root : Uuid × Option Int}
    (hr : s.RootKnown tid maxRangeChainDepth d.order d.parent d.maxAmount root) :
    s'.RootKnown tid maxRangeChainDepth d.order d.parent d.maxAmount root := by
  refine hr.mono (fun x => h.hands (tid,x)) fun id _ => ?_
  rw [State.link?,State.order?,h.orders]
  rfl

def NoneLocked (tid : Nat) (d : Defaulter) (s : State) : Prop :=
  (∃ root, s.RootKnown tid maxRangeChainDepth d.order d.parent d.maxAmount root) ∧
    ∀ b, d.Owns s b → b.state ≠ .locked

theorem NoneLocked.kept (hk : Undisturbed tid s s') (hw : s.watches tid d.order = true)
    (h : NoneLocked tid d s) : NoneLocked tid d s' := by
  obtain ⟨⟨root,hr⟩,h⟩ := h
  exact ⟨⟨root,hr.kept hk⟩,fun b hb => h b ((hk.owns hw hr).mp hb)⟩

theorem NoneLocked.releasing (hk : Releasing X s s') (h : NoneLocked tid d s) :
    NoneLocked tid d s' := by
  obtain ⟨⟨root,hr⟩,h⟩ := h
  refine ⟨⟨root,hk.rootKnown hr⟩,fun b hb hlocked => ?_⟩
  obtain ⟨f,hf,hrow⟩ := hk.bonds
  -- a bond that is locked now is one that was not released
  have hsame : ∀ b₀ ∈ s.bonds, f b₀ = b → b = b₀ := by
    rintro b₀ hb₀ rfl
    rcases hrow b₀ hb₀ with h | ⟨_,h,_⟩
    · exact h
    · exact nomatch h.symm.trans hlocked
  rcases hb with ⟨hmaker,hb,hrest⟩ | ⟨hmaker,home,hhome,hb⟩
  · rw [hf] at hb
    obtain ⟨b₀,hb₀,hfb⟩ := List.mem_map.mp hb
    obtain rfl := hsame b₀ hb₀ hfb
    exact h b (.inl ⟨hmaker,hb₀,hrest⟩) hlocked
  · rw [makerBond_map hf (Releasing.core hrow)] at hb
    obtain ⟨b₀,hb₀,hfb⟩ := Option.map_eq_some_iff.mp hb
    obtain rfl := hsame b₀ (List.mem_of_find?_eq_some hb₀) hfb
    refine h b (.inr ⟨hmaker,home,?_,hb₀⟩) hlocked
    have hroot : d.root s' = d.root s := (hk.rootKnown hr).eq.trans hr.eq.symm
    simpa only [Defaulter.Home,hroot] using hhome

inductive HandledAt (tid : Nat) (d : Defaulter) (b₀ : Bond) (s : State) : Prop
  | bond (b : Bond) : b ∈ s.bonds → b.id = b₀.id → b.role = b₀.role → b.orderId = d.order →
      d.pubkey = some b.pubkey → b.slashedReason = some .timeout → HandledAt tid d b₀ s
  | slice (b : Bond) : b ∈ s.bonds → d.isMaker = true → b.childOrderId = some d.order →
      HandledAt tid d b₀ s
  | noKey (root : Uuid × Option Int) :
      s.RootKnown tid maxRangeChainDepth d.order d.parent d.maxAmount root → d.isMaker = true →
      root.2.isSome = true → d.pubkey = none → HandledAt tid d b₀ s
  | noShare (root : Uuid × Option Int) :
      s.RootKnown tid maxRangeChainDepth d.order d.parent d.maxAmount root → d.isMaker = true →
      root.2.isSome = true → b₀ ∈ s.bonds → (b₀.orderId = d.order ∨ b₀.orderId = root.1) →
      (∀ m ∈ root.2, 0 < m → sliceSlashAmount b₀ d.fiatAmount m ≤ 0) → HandledAt tid d b₀ s

theorem HandledAt.handled (h : HandledAt tid d b₀ s) (hrole : b₀.role = d.role) :
    Handled tid d s := by
  cases h with
  | bond b hb _ hb₀ hid hkey hreason =>
    exact .inl ⟨b,hb,.inl ⟨hid,hb₀.trans hrole,fun _ => hkey,hreason⟩⟩
  | slice b hb hmaker hchild => exact .inl ⟨b,hb,.inr ⟨hmaker,hchild⟩⟩
  | noKey root hr hmaker hmax hkey =>
    exact .inr (.inr ⟨⟨root,hr⟩,.inr ⟨hmaker,root,hr.eq,hmax,.inl hkey⟩⟩)
  | noShare root hr hmaker hmax hb hid hshare =>
    have hrole : b₀.role = .maker := hrole.trans (if_pos hmaker)
    exact .inr (.inr ⟨⟨root,hr⟩,.inr ⟨hmaker,root,hr.eq,hmax,.inr ⟨b₀,hb,hrole,hid,hshare⟩⟩⟩)

theorem HandledAt.kept (hk : Undisturbed tid s s') (hw : s.watches tid d.order = true)
    (h : HandledAt tid d b₀ s) : HandledAt tid d b₀ s' := by
  cases h with
  | bond b hb hid hrole horder hkey hreason =>
    exact .bond b ((hk.mem_bonds hw (.inl horder)).mpr hb) hid hrole horder hkey hreason
  | slice b hb hmaker hchild =>
    exact .slice b ((hk.mem_bonds hw (.inr hchild)).mpr hb) hmaker hchild
  | noKey root hr hmaker hmax hkey => exact .noKey root (hr.kept hk) hmaker hmax hkey
  | noShare root hr hmaker hmax hb hid hshare =>
    refine .noShare root (hr.kept hk) hmaker hmax ?_ hid hshare
    rcases hid with hid | hid
    · exact (hk.mem_bonds hw (.inl hid)).mpr hb
    · exact (hk.mem_bonds (hr.watches hw) (.inl hid)).mpr hb

theorem HandledAt.releasing (hX : ∀ read, X read → read.id ≠ b₀.id) (hk : Releasing X s s')
    (h : HandledAt tid d b₀ s) : HandledAt tid d b₀ s' := by
  obtain ⟨f,hf,hrow⟩ := hk.bonds
  have hsame : ∀ b ∈ s.bonds, b.id = b₀.id → b ∈ s'.bonds := fun b hb hid => by
    have hkeep : f b = b := (hrow b hb).resolve_right fun h => by
      obtain ⟨⟨read,hread,hr⟩,_⟩ := h
      exact hX read hread (hr.trans hid)
    rw [hf]
    exact List.mem_map.mpr ⟨b,hb,hkeep⟩
  cases h with
  | bond b hb hid hrole horder hkey hreason =>
    exact .bond b (hsame b hb hid) hid hrole horder hkey hreason
  | slice b hb hmaker hchild =>
    have hcore := Releasing.core hrow b hb
    refine .slice (f b) ?_ hmaker (hcore.childOrderId.trans hchild)
    rw [hf]
    exact List.mem_map_of_mem hb
  | noKey root hr hmaker hmax hkey => exact .noKey root (hk.rootKnown hr) hmaker hmax hkey
  | noShare root hr hmaker hmax hb hid hshare =>
    exact .noShare root (hk.rootKnown hr) hmaker hmax (hsame b₀ hb rfl) hid hshare

end

section

variable {cfg : Settings} {ext : Externals} {D : Requirement} {l : Label} {α : Type}
variable {B : Label → Prop} {P : Label → Op → State → Prop}
variable {ls : List Label} {T : State → Prop} {o : Order} {id : Uuid} {bonds : List Bond}
variable {isRange : Bool} {side : Side}

def Op.retains : Op → Bool
  | .order _ | .bond (.run (.update _ _)) => false
  | _ => true

theorem retains_of_isCall {op : Op} (h : op.isCall = true) : op.retains = true := by
  cases op <;> first | rfl | cases h

abbrev Op.release (read : Bond) (t : Option Int) : Op :=
  .bond (.run (.update read { read with state := .released, releasedAt := t }))

/-- The operation releases one of `X`, or writes nothing. -/
def Op.Releases (X : Bond → Prop) (op : Op) : Prop :=
  op.isPlain = true ∨ ∃ read t, X read ∧ op = .release read t

theorem releases_bond {X : Bond → Prop} {b : Bond} (h : X b) : ReleasesBond (Op.Releases X) b :=
  ⟨.inl rfl,.inl rfl,fun _ _ => .inl rfl,fun t => .inr ⟨b,t,h,rfl⟩⟩

theorem release_core (read : Bond) (t : Option Int) {s : State} {b : Bond}
    (hk : Knowing l (.release read t) ls s) (hb : b ∈ s.bonds) (hid : b.id = read.id) :
    b.SameCore { read with state := .released, releasedAt := t, createdAt := b.createdAt } := by
  obtain ⟨Γ,hn,hΓ⟩ := hk.need
  have hn : BondStmt.need l.req Γ (.run (.update read _)) := hn
  have hcore := (rewrite_becomes hk.consistent hn hΓ hb).1
  simpa [BondStmt.rewrite,BondUpdate.selects,BondUpdate.target,BondUpdate.guard,BondUpdate.set,hid]
    using hcore

theorem release_releasing (ext : Externals) (ch : Choice) {X : Bond → Prop} {read : Bond}
    {t : Option Int} {s : State} (hX : X read) (hk : Knowing l (.release read t) ls s) :
    Releasing X s (exec ext l.tid (.release read t) ch s).1 := by
  simp only [exec,orFault]
  split
  · exact ⟨rfl,fun _ h => h,fun b => b,by simp,fun b _ => .inl rfl⟩
  · refine ⟨rfl,fun _ h => h,_,rfl,fun b hb => ?_⟩
    dsimp only
    split
    next hsel =>
      have hid : b.id = read.id := bondUpdate_id hsel
      exact .inr ⟨⟨read,hX,hid.symm⟩,rfl,release_core read t hk hb hid⟩
    · exact .inl rfl

theorem releases_sat (hP : ∀ op s, op.isCall = true → P l op s) {X : Bond → Prop} {p : M α}
    {s : State}
    (hfree : ∀ read t ls s, X read → T s → Knowing l (.release read t) ls s →
      P l (.release read t) s) (hp : p.Only (Op.Releases X)) (hs : T s)
    (hT : ∀ s s', Undisturbed l.tid s s' → T s → T s') (hR : ∀ s s', Releasing X s s' → T s → T s') :
    (daemon cfg ext).Sat D (watchingOrders B P) l p (fun _ s => T s) s := by
  refine System.Sat.of_only hp hs (fun s s' hs hr => hT s s' hr hs) fun op ls s hop hs hk => ?_
  rcases hop with hop | ⟨read,t,hX,rfl⟩
  · exact ⟨hP _ _ (isCall_of_isPlain hop),fun ch _ =>
      hT s _ (exec_undisturbed ext l.tid ch s hop) hs⟩
  · exact ⟨hfree read t ls s hX hs hk,fun ch _ => hR s _ (release_releasing ext ch hX hk) hs⟩

structure Tracked (tid : Nat) (o : Order) (s : State) : Prop where
  waits : o.waits = true
  read : ReadBy tid o s
  stored : ∃ r ∈ s.orders, r.order.id = o.id
  same : ∀ r ∈ s.orders, r.order.id = o.id → r.order.status = o.status ∧ r.order.kind = o.kind ∧
    ∀ side, r.order.defaulter side = o.defaulter side

theorem Tracked.kept {tid : Nat} {s s' : State} (hk : Undisturbed tid s s') (h : Tracked tid o s) :
    Tracked tid o s' := by
  obtain ⟨r,hr,hid⟩ := h.stored
  exact ⟨h.waits,h.read.mono hk.hands,⟨r,(hk.mem_orders h.read.watches hid).mpr hr,hid⟩,
    fun r hr hid => h.same r ((hk.mem_orders h.read.watches hid).mp hr) hid⟩

theorem Tracked.of_orders {tid : Nat} {s s' : State} (hr : ∀ p ∈ s.inHand, p ∈ s'.inHand)
    (ho : s'.orders = s.orders) (h : Tracked tid o s) : Tracked tid o s' :=
  ⟨h.waits,h.read.mono fun x => hr (tid,x),ho ▸ h.stored,ho ▸ h.same⟩

theorem Tracked.reset {tid : Nat} {s : State} (h : Tracked tid o s) :
    Tracked tid o.resetForTimeout s := by
  unfold Order.resetForTimeout
  split <;> exact ⟨h.waits,h.read,h.stored,h.same⟩

theorem reconfirm_tracked (hP : ∀ op s, op.isCall = true → P l op s) {s : State} :
    (daemon cfg ext).Sat D (watchingOrders B P) l (reconfirmTimeoutEligibility cfg id)
      (fun r s => ∀ o, r = .ok (some o) → Tracked l.tid o s) s := by
  refine sat_ask_attempt_bind (T := fun _ => True) trivial (fun _ _ _ h => h) fun s ls _ hk => ?_
  refine ⟨hP _ _ rfl,fun ch _ => ?_⟩
  generalize hres : (exec ext l.tid (.query (.orderById id)) ch s).2 = found
  have hread : ∀ o, found = .ok (some o) → o.waits = true →
      Tracked l.tid o (exec ext l.tid (.query (.orderById id)) ch s).1 := by
    rintro o rfl hw
    obtain ⟨hread,r,hr,rfl⟩ := orderById_read hres
    have hmem := List.mem_of_find?_eq_some hr
    refine ⟨hw,hread,⟨r,hmem,rfl⟩,fun r' hr' hid => ?_⟩
    rw [(exec_query_ok hres).1] at hr' hmem
    obtain rfl := hk.consistent.order_unique hr' hmem hid
    exact ⟨rfl,rfl,fun _ => rfl⟩
  refine sat_ask_bind (T := fun s => ∀ o, found = .ok (some o) → o.waits = true →
    Tracked l.tid o s) hread (fun s s' hr h o ho hw => (h o ho hw).kept hr) fun s ls hs hk => ?_
  refine ⟨hP _ _ rfl,fun ch _ => ⟨fun now hnow => ?_,fun e he => nomatch he⟩⟩
  cases hnow
  intro o ho
  obtain ⟨hfound,hpass⟩ := reconfirmed ho
  exact hs o hfound hpass.1

structure Surveyed (tid : Nat) (o : Order) (bonds : List Bond) (isRange : Bool) (s : State) : Prop
    extends Tracked tid o s where
  active : ∀ b, b ∈ bonds ↔ b ∈ s.bonds ∧ b.orderId = o.id ∧ b.state.isActive = true
  preimage : ∀ b ∈ bonds, b.state = .locked → b.preimage.isSome = true
  root : ∃ root, s.RootKnown tid maxRangeChainDepth o.id o.rangeParentId o.maxAmount root ∧
    root.2.isSome = isRange

theorem active_kept {tid : Nat} {s s' : State} (hk : Undisturbed tid s s')
    (hw : s.watches tid o.id = true)
    (h : ∀ b, b ∈ bonds ↔ b ∈ s.bonds ∧ b.orderId = o.id ∧ b.state.isActive = true) :
    ∀ b, b ∈ bonds ↔ b ∈ s'.bonds ∧ b.orderId = o.id ∧ b.state.isActive = true := by
  refine fun b => (h b).trans ?_
  constructor <;> rintro ⟨hb,hid,hst⟩
  · exact ⟨(hk.mem_bonds hw (.inl hid)).mpr hb,hid,hst⟩
  · exact ⟨(hk.mem_bonds hw (.inl hid)).mp hb,hid,hst⟩

theorem Surveyed.kept {tid : Nat} {s s' : State} (hk : Undisturbed tid s s')
    (h : Surveyed tid o bonds isRange s) : Surveyed tid o bonds isRange s' := by
  obtain ⟨root,hr,hrange⟩ := h.root
  exact ⟨h.toTracked.kept hk,active_kept hk h.read.watches h.active,h.preimage,root,hr.kept hk,
    hrange⟩

structure Targeted (o : Order) (side : Side) (bonds : List Bond) (isRange : Bool) (b : Bond)
    (s : State) : Prop where
  stored : b ∈ s.bonds
  locked : b.state = .locked
  found : b ∈ bonds ∧ b.orderId = o.id ∧ sidePubkey o side = some b.pubkey ∨
    sideIsMaker o side = true ∧ b.role = .maker ∧
      ∃ root ∈ (o.defaulter side).root s, b.orderId = root.1
  own : (isRange && sideIsMaker o side) = false →
    b.orderId = o.id ∧ sidePubkey o side = some b.pubkey ∧ b.preimage.isSome = true

theorem Targeted.filed {b : Bond} {s : State} (h : Targeted o side bonds isRange b s)
    {root : Uuid × Option Int} (hr : (o.defaulter side).root s = some root) :
    b.orderId = o.id ∨ b.orderId = root.1 := by
  rcases h.found with ⟨_,hid,_⟩ | ⟨_,_,root',hroot,hid⟩
  · exact .inl hid
  · cases hr.symm.trans hroot
    exact .inr hid

theorem Targeted.kept {tid : Nat} {o : Order} {side : Side} {bonds : List Bond} {isRange : Bool}
    {b : Bond} {s s' : State} (hk : Undisturbed tid s s') (hs : Surveyed tid o bonds isRange s)
    (h : Targeted o side bonds isRange b s) : Targeted o side bonds isRange b s' := by
  obtain ⟨root,hr,_⟩ := hs.root
  obtain ⟨hroot',hroot⟩ := hk.root (d := o.defaulter side) hr
  have hwatched : s.watches tid b.orderId = true := by
    rcases h.filed hroot with hid | hid
    · exact hid ▸ hs.read.watches
    · exact hid ▸ hr.watches hs.read.watches
  refine ⟨(hk.mem_bonds hwatched (.inl rfl)).mpr h.stored,h.locked,h.found.imp_right ?_,h.own⟩
  rw [hroot,hroot']
  exact id

theorem Targeted.role {b : Bond} {s : State} (h : Targeted o side bonds isRange b s)
    (hkeys : ∀ b ∈ bonds, o.keysBond b = true) : b.role = (o.defaulter side).role := by
  rcases h.found with ⟨hb,_,hkey⟩ | ⟨hmaker,hrole,_⟩
  · exact keysBond_role (hkeys b hb) hkey
  · exact hrole.trans (if_pos hmaker).symm

theorem locked_isActive {b : Bond} (h : b.state = .locked) : b.state.isActive = true := by
  rw [h]
  rfl

theorem Surveyed.targeted {tid : Nat} {b : Bond} {s : State} (hs : Surveyed tid o bonds isRange s)
    (h : resolveLockedBond o bonds side = some b) : Targeted o side bonds isRange b s := by
  obtain ⟨hmem,hst,hkey⟩ := resolveLockedBond_eq_some h
  obtain ⟨hb,hid,_⟩ := (hs.active b).mp hmem
  exact ⟨hb,hst,.inl ⟨hmem,hid,hkey⟩,fun _ => ⟨hid,hkey,hs.preimage b hmem hst⟩⟩

theorem resolveLockedBond_none {b : Bond} (h : resolveLockedBond o bonds side = none)
    (hb : b ∈ bonds) (hkey : sidePubkey o side = some b.pubkey) : b.state ≠ .locked := by
  intro hst
  simp only [resolveLockedBond,hkey,List.find?_eq_none] at h
  exact h b hb (by simp [hst])

structure Untargeted (o : Order) (side : Side) (bonds : List Bond) (isRange : Bool) (s : State) :
    Prop where
  own : resolveLockedBond o bonds side = none
  root : (isRange && sideIsMaker o side) = true → ∀ root,
    (o.defaulter side).root s = some root → ∀ b, s.makerBond root.1 = some b → b.state ≠ .locked

theorem Surveyed.noneLocked {tid : Nat} {s : State} (hs : Surveyed tid o bonds isRange s)
    (hkeys : ∀ b ∈ bonds, o.keysBond b = true) (h : Untargeted o side bonds isRange s) :
    NoneLocked tid (o.defaulter side) s := by
  obtain ⟨root,hr,hrange⟩ := hs.root
  have hroot : (o.defaulter side).root s = some root := hr.eq
  have hfound (b : Bond) (hb : b ∈ bonds) (hst : b.state = .locked) :
      sidePubkey o side ≠ some b.pubkey := fun hkey => resolveLockedBond_none h.own hb hkey hst
  refine ⟨⟨root,hr⟩,fun b hb hst => ?_⟩
  rcases hb with ⟨_,hb,hid,_,hkey⟩ | ⟨hmaker,home,hhome,hb⟩
  · exact hfound b ((hs.active b).mpr ⟨hb,hid,locked_isActive hst⟩) hst hkey
  have hside : sideIsMaker o side = true := hmaker
  rcases hhome with rfl | ⟨root',hroot',hmax,rfl⟩
  · have hb' := List.find?_some hb
    simp only [Bool.and_eq_true,beq_iff_eq] at hb'
    have hmem : b ∈ bonds := (hs.active b).mpr
      ⟨List.mem_of_find?_eq_some hb,hb'.1.1,locked_isActive hst⟩
    rcases keysBond_maker (hkeys b hmem) hb'.1.2 hside with hkey | ⟨hparent,hmax⟩
    · exact hfound b hmem hst hkey
    · -- the order is the root of its range, and the search has looked there
      have heq : root = (o.id,o.maxAmount) := by
        rw [hparent] at hr
        exact hr
      subst heq
      exact h.root (by rw [← hrange,hside,hmax]; rfl) _ hroot b hb hst
  · cases hroot.symm.trans hroot'
    exact h.root (by rw [← hrange,hside,hmax]; rfl) _ hroot b hb hst

theorem findMakerBondForOrder_known (hP : ∀ op s, op.isCall = true → P l op s) {s : State}
    (hs : T s) (hread : ReadBy l.tid o s) (hT : ∀ s s', Undisturbed l.tid s s' → T s → T s') :
    (daemon cfg ext).Sat D (watchingOrders B P) l (findMakerBondForOrder o)
      (fun r s => T s ∧ ∀ found, r = .ok found → ∃ root,
        s.RootKnown l.tid maxRangeChainDepth o.id o.rangeParentId o.maxAmount root ∧
        s.makerBond root.1 = found) s := by
  refine System.Sat.bind ((findRangeRootFrom_sat (T := fun s => T s ∧ ReadBy l.tid o s)
    hP ⟨hs,hread⟩ hread fun s s' hk h =>
      ⟨hT s s' hk h.1,h.2.mono hk.hands⟩).mono fun r s h => ?_)
  cases r with
  | error e => exact ⟨h.1.1,fun _ h => nomatch h⟩
  | ok root =>
    let R : State → Prop := fun s =>
      s.RootKnown l.tid maxRangeChainDepth o.id o.rangeParentId o.maxAmount (root.id,root.maxAmount)
    have hstep : ∀ s s', Undisturbed l.tid s s' → T s ∧ ReadBy l.tid o s ∧ R s →
        T s' ∧ ReadBy l.tid o s' ∧ R s' :=
      fun s s' hk h => ⟨hT s s' hk h.1,h.2.1.mono hk.hands,h.2.2.kept hk⟩
    refine sat_ask (T := fun s => T s ∧ ReadBy l.tid o s ∧ R s) ⟨h.1.1,h.1.2,h.2 root rfl⟩ hstep
      fun s ls hs hk => ⟨hP _ _ rfl,fun ch _ => ?_⟩
    have hk : Undisturbed l.tid s
        (exec ext l.tid (.query (.findBondByOrderAndRole root.id .maker)) ch s).1 :=
      exec_undisturbed ext l.tid ch s rfl
    obtain ⟨ht,_,hr⟩ := hstep s _ hk hs
    refine ⟨ht,fun found hres => ⟨_,hr,?_⟩⟩
    rw [hk.makerBond (hs.2.2.watches hs.2.1.watches)]
    exact (exec_query_ok hres).2

theorem resolveSlashTarget_targets (hP : ∀ op s, op.isCall = true → P l op s) {s : State} (ht : T s)
    (hT : ∀ s s', Undisturbed l.tid s s' → T s → T s') (hs : Surveyed l.tid o bonds isRange s) :
    (daemon cfg ext).Sat D (watchingOrders B P) l (resolveSlashTarget o bonds side isRange)
      (fun r s => T s ∧ Surveyed l.tid o bonds isRange s ∧
        (r = .ok none → Untargeted o side bonds isRange s) ∧
        ∀ b, r = .ok (some b) → Targeted o side bonds isRange b s) s := by
  unfold resolveSlashTarget
  split
  next b hb => exact ⟨ht,hs,fun h => (nomatch h),fun b' h => by cases h; exact hs.targeted hb⟩
  next hnone =>
    split
    next hrange =>
      refine System.Sat.bind ((findMakerBondForOrder_known hP
        (T := fun s => T s ∧ Surveyed l.tid o bonds isRange s) ⟨ht,hs⟩ hs.read
        fun s s' hk h => ⟨hT s s' hk h.1,h.2.kept hk⟩).mono fun r s h => ?_)
      obtain ⟨⟨ht,hs⟩,hfound⟩ := h
      cases r with
      | error e => exact ⟨ht,hs,fun h => (nomatch h),fun _ h => (nomatch h)⟩
      | ok found =>
        obtain ⟨root,hr,hb⟩ := hfound found rfl
        refine ⟨ht,hs,fun h => ⟨hnone,fun _ root' hroot b hmaker hst => ?_⟩,fun b h => ?_⟩
        · have heq : some root = some root' := hr.eq.symm.trans hroot
          cases heq
          rw [hb] at hmaker
          subst hmaker
          simp [hst] at h
        · obtain ⟨hfb,hst⟩ := Option.filter_eq_some_iff.mp (Except.ok.inj h)
          have hst : b.state = .locked := by simpa using hst
          rw [hfb] at hb
          have hb' := List.find?_some hb
          simp only [Bool.and_eq_true,beq_iff_eq] at hb'
          refine ⟨List.mem_of_find?_eq_some hb,hst,.inr ⟨(Bool.and_eq_true_iff.mp hrange).2,
            hb'.1.2,root,hr.eq,hb'.1.1⟩,fun hno => ?_⟩
          exact nomatch hrange.symm.trans hno
    next hrange =>
      exact ⟨ht,hs,fun _ => ⟨hnone,fun h => absurd h hrange⟩,fun _ h => (nomatch h)⟩

/-- With the active bonds read, the job walks up the range and looks for the bond to slash. -/
theorem survey_sat (hP : ∀ op s, op.isCall = true → P l op s) {f : Bool → Option Bond → M α}
    {Q : Except MostroError α → State → Prop} {s : State} (ht : T s)
    (hT : ∀ s s', Undisturbed l.tid s s' → T s → T s') (hs : Tracked l.tid o s)
    (hactive : ∀ b, b ∈ bonds ↔ b ∈ s.bonds ∧ b.orderId = o.id ∧ b.state.isActive = true)
    (hpre : ∀ b ∈ bonds, b.state = .locked → b.preimage.isSome = true)
    (hfails : ∀ e s, Q (.error e) s)
    (hf : ∀ isRange target s, T s → Surveyed l.tid o bonds isRange s →
      (target = none → Untargeted o side bonds isRange s) →
      (∀ b, target = some b → Targeted o side bonds isRange b s) →
      (daemon cfg ext).Sat D (watchingOrders B P) l (f isRange target) Q s) :
    (daemon cfg ext).Sat D (watchingOrders B P) l ((orderHasRangeMakerBond o).bind fun isRange =>
      (resolveSlashTarget o bonds side isRange).bind (f isRange)) Q s := by
  refine System.Sat.bind (System.Sat.bind ((findRangeRootFrom_sat (T := fun s => T s ∧
    Tracked l.tid o s ∧ ∀ b, b ∈ bonds ↔ b ∈ s.bonds ∧ b.orderId = o.id ∧ b.state.isActive = true)
    hP ⟨ht,hs,hactive⟩ hs.read fun s s' hk h => ⟨hT s s' hk h.1,h.2.1.kept hk,
      active_kept hk h.2.1.read.watches h.2.2⟩).mono fun r s h => ?_))
  cases r with
  | error e => exact hfails e s
  | ok root =>
    refine System.Sat.bind ((resolveSlashTarget_targets hP h.1.1 hT
      ⟨h.1.2.1,h.1.2.2,hpre,_,h.2 root rfl,rfl⟩).mono fun r s h => ?_)
    obtain ⟨ht,hs,hnone,hsome⟩ := h
    cases r with
    | error e => exact hfails e s
    | ok target =>
      exact hf _ target s ht hs (fun h => hnone (congrArg _ h)) fun b h => hsome b (congrArg _ h)

def Slashing (tid : Nat) (o : Order) (side : Side) (b : Bond) (s : State) : Prop :=
  Tracked tid o s ∧ b ∈ s.bonds ∧ b.state = .locked ∧ b.orderId = o.id ∧
    sidePubkey o side = some b.pubkey

theorem Slashing.kept {tid : Nat} {b : Bond} {s s' : State} (hk : Undisturbed tid s s')
    (h : Slashing tid o side b s) : Slashing tid o side b s' := by
  obtain ⟨ht,hb,hst,hid,hkey⟩ := h
  exact ⟨ht.kept hk,(hk.mem_bonds ht.read.watches (.inl hid)).mpr hb,hst,hid,hkey⟩

theorem Slashing.backsWaiting {tid : Nat} {b : Bond} {s : State} {p : Hash}
    (h : Slashing tid o side b s) (hp : b.preimage = some p) : s.backsWaiting p = true := by
  obtain ⟨ht,hb,_,hid,_⟩ := h
  obtain ⟨r,hr,hro⟩ := ht.stored
  refine backsWaiting_iff.mpr ⟨b,hb,hp,r,hr,hro.trans hid.symm,?_⟩
  have hst := (ht.same r hr hro).1
  rw [Order.waits,hst]
  exact ht.waits

def State.Unlocked (s : State) (order id : Uuid) : Prop :=
  ∀ b ∈ s.bonds, b.orderId = order → b.id = id → b.state ≠ .locked

theorem State.Unlocked.kept {tid : Nat} {order : Uuid} {s s' : State} (hk : Undisturbed tid s s')
    (hw : s.watches tid order = true) (h : s.Unlocked order id) : s'.Unlocked order id :=
  fun b hb horder => h b ((hk.mem_bonds hw (.inl horder)).mp hb) horder

theorem State.Unlocked.releasing {X : Bond → Prop} {order : Uuid} {s s' : State}
    (hk : Releasing X s s') (h : s.Unlocked order id) : s'.Unlocked order id := by
  intro x hx horder hid
  obtain ⟨f,hf,hrow⟩ := hk.bonds
  rw [hf] at hx
  obtain ⟨b,hb,rfl⟩ := List.mem_map.mp hx
  rcases hrow b hb with heq | ⟨_,hst,_⟩
  · rw [heq] at horder hid ⊢
    exact h b hb horder hid
  · simp [hst]

structure Slashed (tid : Nat) (o : Order) (side : Side) (isRange : Bool) (b : Bond) (s : State) :
    Prop extends Tracked tid o s where
  handled : HandledAt tid (o.defaulter side) b s
  unlocked : (isRange && sideIsMaker o side) = false → s.Unlocked o.id b.id

theorem Slashed.kept {tid : Nat} {b : Bond} {s s' : State} (hk : Undisturbed tid s s')
    (h : Slashed tid o side isRange b s) : Slashed tid o side isRange b s' :=
  ⟨h.toTracked.kept hk,h.handled.kept hk h.read.watches,fun hr =>
    (h.unlocked hr).kept hk h.read.watches⟩

theorem Slashed.releasing {tid : Nat} {b : Bond} {s s' : State} {X : Bond → Prop}
    (hX : ∀ read, X read → read.id ≠ b.id) (hk : Releasing X s s')
    (h : Slashed tid o side isRange b s) : Slashed tid o side isRange b s' :=
  ⟨h.toTracked.of_orders hk.hands hk.orders,h.handled.releasing hX hk,fun hr =>
    (h.unlocked hr).releasing hk⟩

theorem slash_recorded {tid : Nat} {b : Bond} {s : State} {t share : Int} {trade : Order}
    (h : Slashing tid o side b s) :
    Slashed tid o side isRange b
      ((BondStmt.run (.slash b.id .timeout t share trade)).exec s).1 := by
  obtain ⟨ht,hb,hst,hid,hkey⟩ := h
  have hsel : ∀ x : Bond, (BondUpdate.slash b.id .timeout t share trade).selects s x = true ↔
      x.id = b.id ∧ x.state = .locked := fun x => by
    simp [BondUpdate.selects,BondUpdate.target,BondUpdate.guard]
  refine ⟨ht.of_orders (s := s) (fun _ h => h) rfl,?_,fun _ x hx _ hxid => ?_⟩
  · exact .bond _ (mem_updateWhere.mpr ⟨b,hb,if_pos ((hsel b).mpr ⟨rfl,hst⟩)⟩) rfl rfl hid hkey rfl
  · obtain ⟨q,hq,rfl⟩ := mem_updateWhere.mp hx
    split at hxid
    next hs => simp [hs,BondUpdate.set]
    next hs =>
      rw [if_neg hs]
      exact fun hlocked => hs ((hsel q).mpr ⟨hxid,hlocked⟩)

theorem exec_settle_accepted {ext : Externals} {tid : Nat} {p : Hash} {s : State}
    (h : s.holdState p = some .accepted) :
    (exec ext tid (.lnd (.settleHoldInvoice p)) .ok s).2 = .ok () := by
  simp [exec,LndCall.exec,settleHold,h]

def Op.recordsSlash : Op → Bool
  | .bond (.run (.slash ..)) | .bond (.run (.updateSlashedShare _)) | .bond (.insertSliceSlash _) =>
    true
  | _ => false

structure Lasting (ext : Externals) (l : Label) (T : State → Prop) : Prop where
  kept : ∀ s s', Undisturbed l.tid s s' → T s → T s'
  own : ∀ op ch ls s, op.recordsSlash = true → Knowing l op ls s → T s →
    T (exec ext l.tid op ch s).1

theorem slashOne_lands (hP : ∀ op s, op.retains = true → P l op s)
    (hD : ∀ op ch ls s, D.onOp l op ch ls s → op.slashLands ch s = true) (isRange : Bool) {b : Bond}
    {pct : ℚ} {s : State} (hT : Lasting ext l T) (hp : b.preimage.isSome = true)
    (hs : T s ∧ Slashing l.tid o side b s) :
    (daemon cfg ext).Sat D (watchingOrders B P) l (slashOne o b .timeout pct)
      (fun _ s => T s ∧ Slashed l.tid o side isRange b s) s := by
  have hkept : ∀ s s', Undisturbed l.tid s s' → T s ∧ Slashing l.tid o side b s →
      T s' ∧ Slashing l.tid o side b s' := fun s s' hk h => ⟨hT.kept s s' hk h.1,h.2.kept hk⟩
  obtain ⟨p,hp⟩ := Option.isSome_iff_exists.mp hp
  simp only [slashOne,hp]
  refine sat_bind_assoc (sat_ask_attempt_bind hs hkept
    fun s ls hs hk => ⟨hP _ _ rfl,fun ch hd => ?_⟩)
  obtain ⟨rfl,hacc⟩ : ch = .ok ∧ s.holdState p = some .accepted := by
    simpa [Op.slashLands,hs.2.backsWaiting hp] using hD _ ch ls s hd
  rw [exec_settle_accepted hacc]
  have hown : Undisturbed l.tid s (exec ext l.tid (.lnd (.settleHoldInvoice p)) .ok s).1 :=
    exec_undisturbed ext l.tid .ok s rfl
  refine sat_ask_bind (hkept _ _ hown hs) hkept
    fun s ls hs hk => ⟨hP _ _ rfl,fun ch _ => ⟨fun now hnow => ?_,fun e he => nomatch he⟩⟩
  refine System.Sat.ignore (sat_ask hs hkept fun s ls hs hk => ⟨hP _ _ rfl,fun ch hd => ?_⟩)
  have hne : ch ≠ .fault := by
    simpa [Op.slashLands] using hD _ ch ls s hd
  refine ⟨hT.own _ ch ls s rfl hk hs.1,?_⟩
  simp only [exec,orFault,if_neg hne]
  exact slash_recorded hs.2

structure Slicing (tid : Nat) (o : Order) (side : Side) (bonds : List Bond) (b : Bond) (s : State) :
    Prop extends Surveyed tid o bonds true s where
  maker : sideIsMaker o side = true
  target : Targeted o side bonds true b s

theorem Slicing.kept {tid : Nat} {b : Bond} {s s' : State} (hk : Undisturbed tid s s')
    (h : Slicing tid o side bonds b s) : Slicing tid o side bonds b s' :=
  ⟨h.toSurveyed.kept hk,h.maker,h.target.kept hk h.toSurveyed⟩

theorem insertSlice_stored {v : SliceSlash} {s : State}
    (hlocked : ∃ b ∈ s.bonds, b.id = v.parent.id ∧ b.state = .locked) :
    ∃ b ∈ ((BondStmt.insertSliceSlash v).exec s).1.bonds, b.childOrderId = some v.slice.id := by
  by_cases hall : v.allowed s.bonds = true
  · rw [bondStmt_bonds]
    refine ⟨v.row s.nextId,List.mem_append_right _ ?_,rfl⟩
    simp [BondStmt.inserted,hall]
  · obtain ⟨b,hb,hid,hst⟩ := hlocked
    have hparent : (s.bonds.any fun b => b.id == v.parent.id && b.state == .locked) = true :=
      List.any_eq_true.mpr ⟨b,hb,by simp [hid,hst]⟩
    simp only [SliceSlash.allowed,hparent,Bool.and_true,Bool.not_eq_true',Bool.not_eq_false] at hall
    obtain ⟨x,hx,hchild⟩ := List.any_eq_true.mp hall
    rw [bondStmt_bonds]
    refine ⟨x,List.mem_append_left _ ?_,by simpa using (Bool.and_eq_true_iff.mp hchild).2⟩
    simpa [BondStmt.rewrite] using hx

def Sliced (tid : Nat) (o : Order) (s : State) : Prop :=
  Tracked tid o s ∧ ∃ b ∈ s.bonds, b.childOrderId = some o.id

theorem Sliced.kept {tid : Nat} {s s' : State} (hk : Undisturbed tid s s') (h : Sliced tid o s) :
    Sliced tid o s' := by
  obtain ⟨ht,b,hb,hchild⟩ := h
  exact ⟨ht.kept hk,b,(hk.mem_bonds ht.read.watches (.inr hchild)).mpr hb,hchild⟩

theorem Slicing.insertSlice {b : Bond} {s : State} {v : SliceSlash} {ch : Choice} {n : Nat}
    (hs : Slicing l.tid o side bonds b s) (hslice : v.slice = o) (hparent : v.parent = b)
    (hn : (exec ext l.tid (.bond (.insertSliceSlash v)) ch s).2 = .ok n) :
    Sliced l.tid o (exec ext l.tid (.bond (.insertSliceSlash v)) ch s).1 := by
  have he := exec_effect ext l.tid (.bond (.insertSliceSlash v)) ch s
  refine ⟨hs.toTracked.of_orders (fun _ hp => he.inHand rfl ▸ hp) (he.orders_of_not rfl),?_⟩
  rw [(exec_bond_ok hn).1,← hslice]
  exact insertSlice_stored ⟨b,hs.target.stored,by rw [hparent],hs.target.locked⟩

theorem recordMakerSliceSlash_lands (hP : ∀ op s, op.retains = true → P l op s) {root : Order}
    {b : Bond} {pct : ℚ} {s : State} (hT : Lasting ext l T) (ht : T s)
    (hs : Slicing l.tid o side bonds b s)
    (hroot : s.RootKnown l.tid maxRangeChainDepth o.id o.rangeParentId o.maxAmount
      (root.id,root.maxAmount)) :
    (daemon cfg ext).Sat D (watchingOrders B P) l (recordMakerSliceSlash o root b .timeout pct)
      (fun r s => ∀ x, r = .ok x →
        T s ∧ Tracked l.tid o s ∧ HandledAt l.tid (o.defaulter side) b s) s := by
  have hkept : ∀ s s', Undisturbed l.tid s s' → T s ∧ Slicing l.tid o side bonds b s →
      T s' ∧ Slicing l.tid o side bonds b s' := fun s s' hk h => ⟨hT.kept s s' hk h.1,h.2.kept hk⟩
  have hmax : root.maxAmount.isSome = true := by
    obtain ⟨root',hr,hrange⟩ := hs.root
    have heq : some (root.id,root.maxAmount) = some root' := hroot.eq.symm.trans hr.eq
    cases heq
    exact hrange
  unfold recordMakerSliceSlash
  split
  next key maxFiat hkey hfiat =>
    dsimp only
    obtain ⟨hm,_⟩ := Option.filter_eq_some_iff.mp hfiat
    split
    next hzero =>
      refine fun _ _ => ⟨ht,hs.toTracked,.noShare _ hroot hs.maker hmax hs.target.stored
        (hs.target.filed hroot.eq) ?_⟩
      intro m hm' _
      cases hm.symm.trans hm'
      exact hzero
    · refine sat_ask_bind ⟨ht,hs⟩ hkept
        fun s ls hs _ => ⟨hP _ _ rfl,fun ch _ => ⟨fun now hnow => ?_,fun e he => nomatch he⟩⟩
      refine sat_ask_bind hs hkept fun s ls hs hk =>
        ⟨hP _ _ rfl,fun ch _ => ⟨fun n hn => ?_,fun e he x hx => nomatch hx⟩⟩
      have hmaker := hs.2.maker
      have ht := hT.own _ ch ls s rfl hk hs.1
      have hsliced := hs.2.insertSlice rfl rfl hn
      split
      · exact fun _ _ => ⟨ht,hsliced.1,
          .slice _ hsliced.2.choose_spec.1 hmaker hsliced.2.choose_spec.2⟩
      · refine sat_ask_bind (T := fun s => T s ∧ Sliced l.tid o s) ⟨ht,hsliced⟩
          (fun s s' hk h => ⟨hT.kept s s' hk h.1,h.2.kept hk⟩) fun s ls hs hk =>
            ⟨hP _ _ rfl,fun ch _ => ⟨fun n hn x hx => ?_,fun e he x hx => nomatch hx⟩⟩
        have he := exec_effect ext l.tid (.bond (.run (.updateSlashedShare b.id))) ch s
        obtain ⟨hlasts,ht,c,hc,hchild⟩ := hs
        obtain ⟨c',hc',hcore,_⟩ := hk.bondsProgress he c hc
        exact ⟨hT.own _ ch ls s rfl hk hlasts,ht.of_orders (fun _ hp => he.inHand rfl ▸ hp)
          (he.orders_of_not rfl),
          .slice c' hc' hmaker (hcore.childOrderId.trans hchild)⟩
  next hno =>
    refine fun _ _ => ⟨ht,hs.toTracked,?_⟩
    cases hkey : makerSlicePubkey o with
    | none =>
      exact .noKey _ hroot hs.maker hmax ((makerSlicePubkey_side hs.maker).symm.trans hkey)
    | some key =>
      refine .noShare _ hroot hs.maker hmax hs.target.stored (hs.target.filed hroot.eq)
        fun m hm hpos => ?_
      exact (hno key m hkey (by simpa [hpos] using hm)).elim

theorem slashSide_lands (hP : ∀ op s, op.retains = true → P l op s)
    (hD : ∀ op ch ls s, D.onOp l op ch ls s → op.slashLands ch s = true) {b : Bond} {s : State}
    (hT : Lasting ext l T) (ht : T s) (hs : Surveyed l.tid o bonds isRange s)
    (hb : Targeted o side bonds isRange b s) :
    (daemon cfg ext).Sat D (watchingOrders B P) l (slashSide cfg o b side isRange .timeout)
      (fun r s => ∀ x, r = .ok x → T s ∧ Slashed l.tid o side isRange b s) s := by
  have hcall : ∀ op s, op.isCall = true → P l op s := fun op s h => hP op s (retains_of_isCall h)
  unfold slashSide
  split
  next hmaker =>
    obtain ⟨rfl,hmaker'⟩ := Bool.and_eq_true_iff.mp hmaker
    refine System.Sat.bind
      ((findRangeRootFrom_sat (T := fun s => T s ∧ Slicing l.tid o side bonds b s)
      hcall ⟨ht,hs,hmaker',hb⟩ hs.read fun s s' hk h => ⟨hT.kept s s' hk h.1,h.2.kept hk⟩).mono
      fun r s h => ?_)
    cases r with
    | error e => exact fun _ h => nomatch h
    | ok root =>
      refine System.Sat.bind ((recordMakerSliceSlash_lands hP hT h.1.1 h.1.2 (h.2 root rfl)).mono
        fun r s h => ?_)
      cases r with
      | error e => exact fun _ h => nomatch h
      | ok inserted =>
        obtain ⟨ht,htracked,hhandled⟩ := h inserted rfl
        refine System.Sat.mono
          (calls_sat (T := fun s => T s ∧ Slashed l.tid o side true b s) hcall ?_
          ⟨ht,htracked,hhandled,fun hr => nomatch hmaker.symm.trans hr⟩
          fun s s' hk h => ⟨hT.kept s s' hk h.1,h.2.kept hk⟩) fun r s h x _ => h
        cases inserted
        · trivial
        · exact (ask_only (P := fun op => op.isPlain = true) rfl).bind fun _ => trivial
  next hmaker =>
    obtain ⟨hid,hkey,hp⟩ := hb.own (Bool.not_eq_true _ ▸ hmaker)
    refine System.Sat.bind ((slashOne_lands hP hD isRange hT hp
      ⟨ht,hs.toTracked,hb.stored,hb.locked,hid,hkey⟩).mono fun r s h => ?_)
    cases r with
    | error e => exact fun _ h => nomatch h
    | ok _ =>
      exact System.Sat.mono (calls_sat (T := fun s => T s ∧ Slashed l.tid o side isRange b s) hcall
        ((ask_only (P := fun op => op.isPlain = true) rfl).bind fun _ => trivial) h
        fun s s' hk h => ⟨hT.kept s s' hk h.1,h.2.kept hk⟩) fun r s h x _ => h

theorem activeBonds_read {ch : Choice} {s : State}
    (hk : Knowing l (.query (.findActiveBondsForOrder o.id)) ls s)
    (h : (exec ext l.tid (.query (.findActiveBondsForOrder o.id)) ch s).2 = .ok bonds) :
    (∀ b, b ∈ bonds ↔ b ∈ s.bonds ∧ b.orderId = o.id ∧ b.state.isActive = true) ∧
      ∀ b ∈ bonds, b.state = .locked → b.preimage.isSome = true := by
  have hmem : ∀ b, b ∈ bonds ↔ b ∈ s.bonds ∧ b.orderId = o.id ∧ b.state.isActive = true := by
    intro b
    rw [← (exec_query_ok h).2]
    simp [Query.run,mem_byCreatedAt]
  refine ⟨hmem,fun b hb hst => ?_⟩
  have hb := ((hmem b).mp hb).1
  obtain ⟨p,_,hp,_⟩ := hk.consistent.ownBond hb (hk.consistent.locked_own hb hst)
  simp [hp]

end

end Mostro
