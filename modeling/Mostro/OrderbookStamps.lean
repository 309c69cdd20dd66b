import Mathlib.Algebra.Order.BigOperators.Group.List
import Mathlib.Data.List.Induction
import Mostro.OrderbookQueue

set_option autoImplicit false

/-!
The stamps of order revisions over whole runs of requests.  The registry forgets an order's last
stamp once the map is full and another order is stamped two days past it; under a clock that never
goes back, what is forgotten lies below everything that may still be stamped.
-/

namespace Mostro.Orderbook

/-- One call of `stamp_orderbook_event`, or of `try_stamp_orderbook_event_quiescent` where
`quietSecs` is given, at some time of the clock. -/
structure StampRequest where
  clock : Nat
  id : Uuid
  candidate : Nat
  quietSecs : Option Nat := none
  deriving DecidableEq, Repr

def StampRequest.serve (q : StampRequest) (registry : OrderbookRegistry) :
    Option (OrderbookRegistry × OrderbookStamp) :=
  match q.quietSecs with
  | none => some (stampLocked registry q.id q.candidate)
  | some quietSecs => tryStampOrderbookEventQuiescent registry q.id q.candidate quietSecs

structure Issued where
  request : StampRequest
  createdAt : Nat
  generation : Nat
  deriving DecidableEq, Repr

def serveNext (s : OrderbookRegistry × List Issued) (q : StampRequest) :
    OrderbookRegistry × List Issued :=
  match q.serve s.1 with
  | none => s
  | some (registry,stamp) => (registry,⟨q,stamp.createdAt,stamp.generation⟩ :: s.2)

def serveAll (requests : List StampRequest) : OrderbookRegistry × List Issued :=
  requests.foldl serveNext ({},[])

/-- The stamps a run of requests issues, newest first. -/
def issued (requests : List StampRequest) : List Issued := (serveAll requests).2

def daySecs : Nat := 24 * 3600

theorem serve_eq {q : StampRequest} {registry registry' : OrderbookRegistry}
    {stamp : OrderbookStamp} (h : q.serve registry = some (registry',stamp)) :
    stampLocked registry q.id q.candidate = (registry',stamp) ∧
      ∀ quiet ∈ q.quietSecs, ∀ last ∈ registry.lastTs.lookup q.id, last + quiet ≤ q.candidate := by
  unfold StampRequest.serve at h
  split at h
  next hnone => exact ⟨Option.some.inj h,by simp [hnone]⟩
  next quietSecs hsome =>
    unfold tryStampOrderbookEventQuiescent at h
    split at h
    · cases h
    next hquiet =>
      refine ⟨Option.some.inj h,fun quiet hq last hl => ?_⟩
      obtain rfl : quietSecs = quiet := Option.some.inj (hsome.symm.trans hq)
      simp only [Option.mem_def] at hl
      simpa [hl] using hquiet

theorem monotonicCreatedAt_le (last : LastTs) (key : Uuid) (candidate : Nat) :
    candidate ≤ (monotonicCreatedAt last key candidate).2 ∧
      ∀ ts ∈ last.lookup key, ts < (monotonicCreatedAt last key candidate).2 := by
  simp only [monotonicCreatedAt]
  split
  next ts hts =>
    refine ⟨le_max_left _ _,fun ts' hts' => ?_⟩
    obtain rfl : ts = ts' := Option.some.inj (hts.symm.trans hts')
    exact lt_of_lt_of_le (Nat.lt_succ_self ts) (le_max_right _ _)
  next hnone => exact ⟨le_rfl,by simp [hnone]⟩

theorem monotonicCreatedAt_lookup (last : LastTs) (key : Uuid) (candidate : Nat) :
    (monotonicCreatedAt last key candidate).1.lookup key =
        some (monotonicCreatedAt last key candidate).2 ∧
      ∀ key', key' ≠ key → ∀ ts ∈ last.lookup key',
        ts ∈ (monotonicCreatedAt last key candidate).1.lookup key' ∨
          ts + orderTsMaxAgeSecs ≤ (monotonicCreatedAt last key candidate).2 := by
  generalize heff : (monotonicCreatedAt last key candidate).2 = effective
  have hfst : (monotonicCreatedAt last key candidate).1 =
      (if orderTsPruneThreshold ≤ last.entries.length then last.retain effective
        else last).insert key effective := by
    rw [← heff]
    rfl
  rw [hfst]
  refine ⟨AList.lookup_insert _,fun key' hne ts hts => ?_⟩
  rw [AList.lookup_insert_ne hne]
  split
  · by_cases hold : effective < ts + orderTsMaxAgeSecs
    · refine .inl (AList.mem_lookup_iff.mpr (List.mem_filter.mpr ⟨AList.mem_lookup_iff.mp hts,?_⟩))
      exact decide_eq_true hold
    · exact .inr (Nat.not_lt.mp hold)
  · exact .inl hts

/-- What the registry knows of the stamps issued until some time: for each it records one at least
as late for its order, or a day has passed since. -/
structure Remembers (clock : Nat) (registry : OrderbookRegistry) (log : List Issued) : Prop where
  generation : ∀ i ∈ log, i.generation ≤ registry.generation
  stamp : ∀ i ∈ log, (∃ ts ∈ registry.lastTs.lookup i.request.id, i.createdAt ≤ ts) ∨
    i.createdAt + daySecs ≤ clock

structure Follows (later earlier : Issued) : Prop where
  generation : earlier.generation < later.generation
  createdAt : earlier.request.id = later.request.id → earlier.createdAt < later.createdAt
  quiet : earlier.request.id = later.request.id → ∀ quiet ∈ later.request.quietSecs,
    earlier.createdAt + quiet ≤ later.createdAt

theorem Remembers.mono {clock clock' : Nat} {registry : OrderbookRegistry} {log : List Issued}
    (h : Remembers clock registry log) (hle : clock ≤ clock') : Remembers clock' registry log :=
  ⟨h.generation,fun i hi => (h.stamp i hi).imp_right fun hday => hday.trans hle⟩

theorem Remembers.serve {registry registry' : OrderbookRegistry} {stamp : OrderbookStamp}
    {log : List Issued} {q : StampRequest} (h : Remembers q.clock registry log)
    (hs : q.serve registry = some (registry',stamp)) (hcand : q.clock ≤ q.candidate)
    (hquiet : ∀ quiet ∈ q.quietSecs, quiet ≤ daySecs)
    (hahead : stamp.createdAt ≤ q.clock + daySecs) :
    Remembers q.clock registry' (⟨q,stamp.createdAt,stamp.generation⟩ :: log) ∧
      ∀ i ∈ log, Follows ⟨q,stamp.createdAt,stamp.generation⟩ i := by
  obtain ⟨heq,hq⟩ := serve_eq hs
  obtain ⟨hfrom,hpast⟩ := monotonicCreatedAt_le registry.lastTs q.id q.candidate
  obtain ⟨hown,hothers⟩ := monotonicCreatedAt_lookup registry.lastTs q.id q.candidate
  cases heq
  dsimp only at hahead ⊢
  -- a stamp of the same order is the recorded one or an earlier one, or more than a day old
  have hfollows (i : Issued) (hi : i ∈ log) (hid : i.request.id = q.id) :
      i.createdAt < (monotonicCreatedAt registry.lastTs q.id q.candidate).2 ∧
        ∀ quiet ∈ q.quietSecs,
          i.createdAt + quiet ≤ (monotonicCreatedAt registry.lastTs q.id q.candidate).2 := by
    rcases h.stamp i hi with ⟨ts,hts,hle⟩ | hday
    · rw [hid] at hts
      refine ⟨lt_of_le_of_lt hle (hpast ts hts),fun quiet hquiet' => ?_⟩
      have := hq quiet hquiet' ts hts
      omega
    · have hpos : 0 < daySecs := by decide
      refine ⟨by omega,fun quiet hquiet' => ?_⟩
      have := hquiet quiet hquiet'
      omega
  refine ⟨⟨fun i hi => ?_,fun i hi => ?_⟩,fun i hi => ⟨?_,fun hid => (hfollows i hi hid).1,
    fun hid => (hfollows i hi hid).2⟩⟩
  · rcases List.mem_cons.mp hi with rfl | hi
    · exact le_rfl
    · exact Nat.le_succ_of_le (h.generation i hi)
  · rcases List.mem_cons.mp hi with rfl | hi
    · exact .inl ⟨_,hown,le_rfl⟩
    · by_cases hid : i.request.id = q.id
      · exact .inl ⟨_,hid ▸ hown,(hfollows i hi hid).1.le⟩
      · rcases h.stamp i hi with ⟨ts,hts,hle⟩ | hday
        · -- what is pruned lies two days below a stamp that is at most one day ahead
          refine (hothers _ hid ts hts).imp (fun hkept => ⟨ts,hkept,hle⟩) fun hpruned => ?_
          simp only [orderTsMaxAgeSecs,daySecs] at hpruned hahead ⊢
          omega
        · exact .inr hday
  · exact Nat.lt_succ_of_le (h.generation i hi)

theorem serveAll_append (requests : List StampRequest) (q : StampRequest) :
    serveAll (requests ++ [q]) = serveNext (serveAll requests) q := by
  simp [serveAll]

theorem serveAll_remembers {requests : List StampRequest} {clock : Nat}
    (hclock : requests.Pairwise (·.clock ≤ ·.clock)) (hpast : ∀ q ∈ requests, q.clock ≤ clock)
    (hcand : ∀ q ∈ requests, q.clock ≤ q.candidate)
    (hquiet : ∀ q ∈ requests, ∀ quiet ∈ q.quietSecs, quiet ≤ daySecs)
    (hahead : ∀ i ∈ issued requests, i.createdAt ≤ i.request.clock + daySecs) :
    Remembers clock (serveAll requests).1 (issued requests) ∧
      (issued requests).Pairwise Follows := by
  induction requests using List.reverseRecOn generalizing clock with
  | nil => exact ⟨⟨fun i hi => (nomatch hi),fun i hi => (nomatch hi)⟩,.nil⟩
  | append_singleton requests q ih =>
    obtain ⟨hbefore,-,hlast⟩ := List.pairwise_append.mp hclock
    have hq : q ∈ requests ++ [q] := List.mem_append_right _ List.mem_cons_self
    have hle : q.clock ≤ clock := hpast q hq
    have hserved : serveAll (requests ++ [q]) = serveNext (serveAll requests) q :=
      serveAll_append _ _
    have ih := ih hbefore (fun r hr => hlast r hr q List.mem_cons_self)
      (fun r hr => hcand r (List.mem_append_left _ hr))
      fun r hr => hquiet r (List.mem_append_left _ hr)
    unfold issued at hahead ih ⊢
    rw [hserved] at hahead ⊢
    unfold serveNext at hahead ⊢
    split at hahead
    next hnone =>
      obtain ⟨hrem,hpairs⟩ := ih hahead
      exact ⟨hrem.mono hle,hpairs⟩
    next registry stamp hsome =>
      obtain ⟨hrem,hpairs⟩ := ih fun i hi => hahead i (List.mem_cons_of_mem _ hi)
      obtain ⟨hrem,hnew⟩ := hrem.serve hsome (hcand q hq) (hquiet q hq)
        (hahead ⟨q,stamp.createdAt,stamp.generation⟩ List.mem_cons_self)
      exact ⟨hrem.mono hle,List.pairwise_cons.mpr ⟨hnew,hpairs⟩⟩

/-- Under a clock that never goes back, with no stamp more than a day ahead of it and no longer
quiet time than a day, the stamps of one order strictly increase and keep the quiet time asked for,
and the generations increase over all orders, through any pruning of the registry. -/
theorem stamps_strictly_increase {requests : List StampRequest}
    (hclock : requests.Pairwise (·.clock ≤ ·.clock))
    (hcand : ∀ q ∈ requests, q.clock ≤ q.candidate ∧ q.candidate ≤ q.clock + 1)
    (hquiet : ∀ q ∈ requests, ∀ quiet ∈ q.quietSecs, quiet ≤ daySecs)
    (hahead : ∀ i ∈ issued requests, i.createdAt ≤ i.request.clock + daySecs) :
    (issued requests).Pairwise fun later earlier =>
      earlier.generation < later.generation ∧
      (earlier.request.id = later.request.id → earlier.createdAt < later.createdAt ∧
        ∀ quiet ∈ later.request.quietSecs, earlier.createdAt + quiet ≤ later.createdAt) := by
  obtain ⟨clock,hpast⟩ : ∃ clock, ∀ q ∈ requests, q.clock ≤ clock :=
    ⟨(requests.map (·.clock)).sum,fun q hq =>
      List.single_le_sum (fun _ _ => Nat.zero_le _) _ (List.mem_map_of_mem hq)⟩
  have hpairs := (serveAll_remembers hclock hpast (fun q hq => (hcand q hq).1) hquiet hahead).2
  exact hpairs.imp fun h => ⟨h.generation,fun hid => ⟨h.createdAt hid,h.quiet hid⟩⟩

def burst (n : Nat) : List StampRequest := (List.range n).map fun id => ⟨1000,id,1000,none⟩

def Issued.inBurst (id : Uuid) : Issued := ⟨⟨1000,id,1000,none⟩,1000,id + 1⟩

theorem serveAll_burst {n : Nat} (h : n ≤ orderTsPruneThreshold) :
    (serveAll (burst n)).1.lastTs.entries = (List.range n).reverse.map (⟨·,1000⟩) ∧
      (serveAll (burst n)).1.generation = n ∧
      issued (burst n) = (List.range n).reverse.map .inBurst := by
  induction n with
  | zero => exact ⟨rfl,rfl,rfl⟩
  | succ n ih =>
    obtain ⟨hentries,hgeneration,hissued⟩ := ih (Nat.le_of_succ_le h)
    have hburst : burst (n + 1) = burst n ++ [⟨1000,n,1000,none⟩] := by
      simp [burst,List.range_succ]
    have hfresh : n ∉ (serveAll (burst n)).1.lastTs := by
      simp [AList.mem_keys,AList.keys,hentries,List.keys]
    have hroom : ¬ orderTsPruneThreshold ≤ (serveAll (burst n)).1.lastTs.entries.length := by
      simpa [hentries] using Nat.lt_of_succ_le h
    have hstamp : monotonicCreatedAt (serveAll (burst n)).1.lastTs n 1000 =
        ((serveAll (burst n)).1.lastTs.insert n 1000,1000) := by
      simp [monotonicCreatedAt,AList.lookup_eq_none.mpr hfresh,hroom]
    unfold issued at hissued ⊢
    rw [hburst,serveAll_append]
    simp [serveNext,StampRequest.serve,stampLocked,hstamp,AList.insert_of_notMem hfresh,hentries,
      hgeneration,hissued,List.range_succ,Issued.inBurst]

theorem monotonicCreatedAt_pruned {last : LastTs} {key : Uuid} {candidate : Nat}
    (hfull : orderTsPruneThreshold ≤ last.entries.length) (hfresh : key ∉ last)
    (hold : ∀ e ∈ last.entries, e.2 + orderTsMaxAgeSecs ≤ candidate) :
    monotonicCreatedAt last key candidate = ((∅ : LastTs).insert key candidate,candidate) := by
  have hretain : last.retain candidate = ∅ :=
    AList.ext (List.filter_eq_nil_iff.mpr fun e he => by simpa using hold e he)
  simp [monotonicCreatedAt,AList.lookup_eq_none.mpr hfresh,hfull,hretain]

def prunedBurst : List StampRequest :=
  burst orderTsPruneThreshold ++ [⟨173800,orderTsPruneThreshold,173800,none⟩,
    ⟨173800,0,173800,some 3600⟩,⟨173800,0,173800,none⟩]

theorem serveAll_prunedBurst :
    (serveAll prunedBurst).1.lastTs.entries =
        [⟨0,173801⟩,⟨orderTsPruneThreshold,173800⟩] ∧
      issued prunedBurst = [⟨⟨173800,0,173800,none⟩,173801,orderTsPruneThreshold + 3⟩,
        ⟨⟨173800,0,173800,some 3600⟩,173800,orderTsPruneThreshold + 2⟩,
        ⟨⟨173800,orderTsPruneThreshold,173800,none⟩,173800,orderTsPruneThreshold + 1⟩] ++
          (List.range orderTsPruneThreshold).reverse.map .inBurst := by
  obtain ⟨hentries,hgeneration,hissued⟩ := serveAll_burst le_rfl
  have hpruned : monotonicCreatedAt (serveAll (burst orderTsPruneThreshold)).1.lastTs
      orderTsPruneThreshold 173800 = ((∅ : LastTs).insert orderTsPruneThreshold 173800,173800) := by
    refine monotonicCreatedAt_pruned (by simp [hentries]) ?_ fun e he => ?_
    · simp [AList.mem_keys,AList.keys,hentries,List.keys]
    · rw [hentries] at he
      obtain ⟨id,-,rfl⟩ := List.mem_map.mp he
      exact (by decide : 1000 + orderTsMaxAgeSecs ≤ 173800)
  have hrun : serveAll prunedBurst = [⟨173800,0,173800,some 3600⟩,⟨173800,0,173800,none⟩].foldl
      serveNext (⟨(∅ : LastTs).insert orderTsPruneThreshold 173800,orderTsPruneThreshold + 1⟩,
        ⟨⟨173800,orderTsPruneThreshold,173800,none⟩,173800,orderTsPruneThreshold + 1⟩ ::
          (List.range orderTsPruneThreshold).reverse.map .inBurst) := by
    rw [prunedBurst,serveAll,List.foldl_append,← serveAll,List.foldl_cons]
    unfold issued at hissued
    simp only [serveNext,StampRequest.serve,stampLocked,hpruned,hgeneration,hissued]
  unfold issued
  rw [hrun]
  -- the last two requests do not read the log
  generalize (List.range orderTsPruneThreshold).reverse.map Issued.inBurst = log
  exact ⟨rfl,rfl⟩

theorem stamps_strictly_increase_burst :
    orderTsPruneThreshold < (issued prunedBurst).length ∧
      (serveAll prunedBurst).1.lastTs.entries.length = 2 ∧
      (issued prunedBurst).Pairwise fun later earlier => earlier.generation < later.generation ∧
        (earlier.request.id = later.request.id → earlier.createdAt < later.createdAt ∧
          ∀ quiet ∈ later.request.quietSecs, earlier.createdAt + quiet ≤ later.createdAt) := by
  obtain ⟨hentries,hissued⟩ := serveAll_prunedBurst
  have hburst {q : StampRequest} (hq : q ∈ burst orderTsPruneThreshold) :
      q.clock = 1000 ∧ q.candidate = 1000 ∧ q.quietSecs = none := by
    obtain ⟨id,-,rfl⟩ := List.mem_map.mp hq
    exact ⟨rfl,rfl,rfl⟩
  refine ⟨?_,by rw [hentries]; rfl,stamps_strictly_increase ?_ ?_ ?_ ?_⟩
  · rw [hissued,List.length_append,List.length_map,List.length_reverse,List.length_range]
    exact Nat.lt_add_of_pos_left (by decide)
  · refine List.pairwise_append.mpr ⟨?_,by decide,fun q hq => ?_⟩
    · exact List.pairwise_map.mpr (List.pairwise_of_forall fun _ _ => le_rfl)
    · rw [(hburst hq).1]
      decide
  · refine List.forall_mem_append.mpr ⟨fun q hq => ?_,by decide⟩
    obtain ⟨hclock,hcand,-⟩ := hburst hq
    omega
  · refine List.forall_mem_append.mpr ⟨fun q hq quiet hquiet => ?_,by decide⟩
    rw [(hburst hq).2.2] at hquiet
    cases hquiet
  · rw [hissued]
    refine List.forall_mem_append.mpr ⟨by decide,fun i hi => ?_⟩
    obtain ⟨id,-,rfl⟩ := List.mem_map.mp hi
    exact (by decide : 1000 ≤ 1000 + daySecs)

end Mostro.Orderbook
