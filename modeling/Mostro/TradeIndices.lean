import Mostro.EventIntake

set_option autoImplicit false

/-!
Trade indices.  The dispatcher compares an index with the stored one only if it is positive, while
the handlers record whatever comes with the message, zero by default; so the stored index grows as
long as the messages of a stored user carry a positive index.
-/

namespace Mostro.EventLoop

open SqlTable

section

variable {users users' : List User} {key : Pubkey} {user : User} {index : Int}

theorem isUserPresent_pubkey (h : isUserPresent users key = some user) : user.pubkey = key := by
  simpa using List.find?_some h

theorem isUserPresent_append (hnone : isUserPresent users user.pubkey = none) :
    isUserPresent (users ++ [user]) user.pubkey = some user := by
  rw [isUserPresent,List.find?_append,
    show users.find? (fun u => u.pubkey == user.pubkey) = none from hnone]
  simp

theorem isUserPresent_update (id : Pubkey) :
    isUserPresent (updateWhere (fun u => u.pubkey == key)
      (fun u => { u with lastTradeIndex := index }) users) id =
      (isUserPresent users id).map fun u =>
        if u.pubkey == key then { u with lastTradeIndex := index } else u := by
  rw [isUserPresent,updateWhere,List.find?_map]
  congr 2
  funext u
  simp only [Function.comp]
  split <;> rfl

def UsersGrow (users users' : List User) : Prop :=
  ∀ id user, isUserPresent users id = some user →
    ∃ user', isUserPresent users' id = some user' ∧ user.lastTradeIndex ≤ user'.lastTradeIndex

theorem UsersGrow.refl (users : List User) : UsersGrow users users :=
  fun _ user h => ⟨user,h,le_rfl⟩

theorem UsersGrow.trans {users'' : List User} (h : UsersGrow users users')
    (h' : UsersGrow users' users'') : UsersGrow users users'' := by
  intro id user hu
  obtain ⟨user',hu',hle⟩ := h id user hu
  obtain ⟨user'',hu'',hle'⟩ := h' id user' hu'
  exact ⟨user'',hu'',hle.trans hle'⟩

theorem UsersGrow.append (user : User) : UsersGrow users (users ++ [user]) := by
  intro id u hu
  refine ⟨u,?_,le_rfl⟩
  rw [isUserPresent,List.find?_append]
  simp [show users.find? (fun u => u.pubkey == id) = some u from hu]

theorem UsersGrow.update
    (h : ∀ user, isUserPresent users key = some user → user.lastTradeIndex ≤ index) :
    UsersGrow users (updateWhere (fun u => u.pubkey == key)
      (fun u => { u with lastTradeIndex := index }) users) := by
  intro id u hu
  rw [isUserPresent_update,hu]
  refine ⟨_,rfl,?_⟩
  dsimp only
  split
  next hkey =>
    obtain rfl := (isUserPresent_pubkey hu).symm.trans (beq_iff_eq.mp hkey)
    exact h u hu
  next => exact le_rfl

end

/-- The user's row can be read; a stored user without an index of their own to record has none
stored either; an unknown user who trades under their own identity names no index; and a take that
only repeats a bond names none. -/
def Delivery.keepsIndex (d : Delivery) (users : List User) (m : UnwrappedMessage) : Bool :=
  !d.faults.isUserPresent
    && (match isUserPresent users m.identity with
      | some user => (resolveTradeIndex m).toOption != some 0 || user.lastTradeIndex ≤ 0
      | none => m.identity != m.sender || m.message.tradeIndexOrZero ≤ 0)
    && (d.path != .repeatsBond || m.message.tradeIndexOrZero ≤ 0)

def Happening.keepsIndex (T : Transport) (users : List User) : Happening → Bool
  | .refreshKnown _ => true
  | .deliver d => match T.unwrapIncoming d.event with
    | .ok (some m) => !m.message.action.isTrade || d.keepsIndex users m
    | _ => true

/-- Every step of a run meets the requirement in the state before it. -/
def keepsIndices (T : Transport) (cfg : Settings) : Intake → List Happening → Bool
  | _, [] => true
  | s, e :: rest => e.keepsIndex T s.users && keepsIndices T cfg (step T cfg s e) rest

section

variable {T : Transport} {faults : DbFaults} {users : List User} {m : UnwrappedMessage}

theorem checkNewUser_users (fault : Bool) :
    (checkNewUser fault users m).1 = users ∨ ∃ index, m.message.tradeIndex = some index ∧
      index ≠ 0 ∧ isUserPresent users m.identity = none ∧
      (checkNewUser fault users m).1 = users ++ [⟨m.identity,index⟩] := by
  unfold checkNewUser
  split
  · exact .inl rfl
  next index hindex =>
    split
    · exact .inl rfl
    next hne =>
      split
      · exact .inl rfl
      · split
        next users' hadd =>
          refine .inr ⟨index,hindex,hne,?_⟩
          unfold addNewUser at hadd
          split at hadd
          · cases hadd
          next hfree =>
            cases hadd
            simp only [Bool.or_eq_true,not_or,Option.not_isSome_iff_eq_none] at hfree
            exact ⟨hfree.2,rfl⟩
        · exact .inl rfl

theorem checkTradeIndex_users (T : Transport) (faults : DbFaults) (users : List User)
    (m : UnwrappedMessage) :
    (checkTradeIndex T faults users m).1 = users ∨ ∃ index, m.message.tradeIndex = some index ∧
      index ≠ 0 ∧ isUserPresent users m.identity = none ∧
      (checkTradeIndex T faults users m).1 = users ++ [⟨m.identity,index⟩] := by
  unfold checkTradeIndex
  split
  · split
    · exact .inl rfl
    · exact checkNewUser_users faults.addNewUser
  · exact .inl rfl

theorem checkTradeIndex_grows : UsersGrow users (checkTradeIndex T faults users m).1 := by
  rcases checkTradeIndex_users T faults users m with h | ⟨_,_,_,_,h⟩
  · rw [h]
    exact .refl users
  · rw [h]
    exact .append _

theorem checkStoredIndex_lt {user : User} (hpos : 0 < m.message.tradeIndexOrZero)
    (hok : checkStoredIndex T user m = .ok ()) :
    user.lastTradeIndex < m.message.tradeIndexOrZero := by
  unfold checkStoredIndex at hok
  rw [if_pos (by omega)] at hok
  split at hok
  · cases hok
  · split at hok
    · cases hok
    next hlt => exact not_le.mp hlt

theorem checkTradeIndex_fresh (hread : faults.isUserPresent = false)
    (htrade : m.message.action.isTrade = true) (hpos : 0 < m.message.tradeIndexOrZero)
    (hnew : isUserPresent users m.identity = none → m.identity ≠ m.sender)
    (hok : (checkTradeIndex T faults users m).2 = .ok ()) :
    (∀ user, isUserPresent users m.identity = some user →
      user.lastTradeIndex < m.message.tradeIndexOrZero) ∧
    ∃ user, isUserPresent (checkTradeIndex T faults users m).1 m.identity = some user ∧
      user.lastTradeIndex ≤ m.message.tradeIndexOrZero := by
  unfold checkTradeIndex at hok ⊢
  simp only [htrade,hread,if_true,Bool.false_eq_true,if_false] at hok ⊢
  cases hu : isUserPresent users m.identity with
  | some user =>
    rw [hu] at hok
    have hlt := checkStoredIndex_lt hpos hok
    refine ⟨fun u h => ?_,user,hu,hlt.le⟩
    cases h
    exact hlt
  | none =>
    rw [hu] at hok
    refine ⟨nofun,?_⟩
    have hsender := hnew hu
    dsimp only at hok ⊢
    unfold checkNewUser at hok ⊢
    cases hindex : m.message.tradeIndex with
    | none => simp [Message.tradeIndexOrZero,hindex] at hpos
    | some index =>
      simp only [Message.tradeIndexOrZero,hindex,Option.getD_some] at hpos ⊢
      simp only [hindex,hpos.ne',hsender,if_false] at hok ⊢
      unfold addNewUser at hok ⊢
      cases hf : faults.addNewUser with
      | true => simp [hf] at hok
      | false =>
        simp only [hu,Option.isSome_none,Bool.or_self,Bool.false_eq_true,if_false]
        exact ⟨⟨m.identity,index⟩,isUserPresent_append hu,le_rfl⟩

theorem recordTradeIndex_users (fault : Bool) (path : HandlerPath) (users : List User)
    (m : UnwrappedMessage) :
    let out := recordTradeIndex fault path users m
    (out.1 = users ∧ (out.2 = .ok () → path = .repeatsBond)) ∨
      ∃ index, resolveTradeIndex m = .ok index ∧ 0 ≤ index ∧
        out.1 = updateWhere (fun u => u.pubkey == m.identity)
          (fun u => { u with lastTradeIndex := index }) users := by
  cases path with
  | refuses => exact .inl ⟨rfl,nofun⟩
  | repeatsBond => exact .inl ⟨rfl,fun _ => rfl⟩
  | proceeds =>
    simp only [recordTradeIndex]
    cases resolveTradeIndex m with
    | error e => exact .inl ⟨rfl,nofun⟩
    | ok index =>
      dsimp only [updateUserTradeIndex]
      by_cases hneg : index < 0
      · simp [hneg]
      · cases fault with
        | true => simp [hneg]
        | false => exact .inr ⟨index,rfl,not_lt.mp hneg,by simp [hneg]⟩

theorem resolveTradeIndex_eq {index : Int} (h : resolveTradeIndex m = .ok index) :
    m.message.tradeIndexOrZero = index := by
  unfold resolveTradeIndex at h
  cases hindex : m.message.tradeIndex with
  | some i =>
    rw [hindex] at h
    cases h
    simp [Message.tradeIndexOrZero,hindex]
  | none =>
    rw [hindex] at h
    dsimp only at h
    split at h
    · cases h
      simp [Message.tradeIndexOrZero,hindex]
    · cases h

end

section

variable {T : Transport} {users : List User} {m : UnwrappedMessage} {d : Delivery}

theorem keepsIndex_fresh (hkeep : d.keepsIndex users m = true)
    (htrade : m.message.action.isTrade = true) (hpos : 0 < m.message.tradeIndexOrZero)
    (hok : (checkTradeIndex T d.faults users m).2 = .ok ()) :
    (∀ user, isUserPresent users m.identity = some user →
      user.lastTradeIndex < m.message.tradeIndexOrZero) ∧
    ∃ user, isUserPresent (checkTradeIndex T d.faults users m).1 m.identity = some user ∧
      user.lastTradeIndex ≤ m.message.tradeIndexOrZero := by
  simp only [Delivery.keepsIndex,Bool.and_eq_true,Bool.not_eq_true'] at hkeep
  refine checkTradeIndex_fresh hkeep.1.1 htrade hpos (fun hnone => ?_) hok
  simpa [hnone,not_le.mpr hpos] using hkeep.1.2

theorem recorded_ge (hkeep : d.keepsIndex users m = true)
    (htrade : m.message.action.isTrade = true)
    (hok : (checkTradeIndex T d.faults users m).2 = .ok ()) {index : Int}
    (hindex : resolveTradeIndex m = .ok index) (hnonneg : 0 ≤ index) {user : User}
    (hu : isUserPresent (checkTradeIndex T d.faults users m).1 m.identity = some user) :
    user.lastTradeIndex ≤ index := by
  have heq := resolveTradeIndex_eq hindex
  rcases hnonneg.eq_or_lt with rfl | hpos
  · -- no user is stored by a message without an index
    rcases checkTradeIndex_users T d.faults users m with hsame | ⟨i,hi,hne,_⟩
    · rw [hsame] at hu
      simp only [Delivery.keepsIndex,Bool.and_eq_true] at hkeep
      simpa [hu,hindex,Except.toOption] using hkeep.1.2
    · rw [Message.tradeIndexOrZero,hi] at heq
      exact absurd heq hne
  · obtain ⟨_,user',hu',hle⟩ := keepsIndex_fresh hkeep htrade (heq ▸ hpos) hok
    rw [hu] at hu'
    cases hu'
    exact heq ▸ hle

theorem recordTradeIndex_grows (hkeep : d.keepsIndex users m = true)
    (htrade : m.message.action.isTrade = true)
    (hok : (checkTradeIndex T d.faults users m).2 = .ok ()) (fault : Bool) :
    UsersGrow (checkTradeIndex T d.faults users m).1
      (recordTradeIndex fault d.path (checkTradeIndex T d.faults users m).1 m).1 := by
  rcases recordTradeIndex_users fault d.path (checkTradeIndex T d.faults users m).1 m with
    ⟨hsame,_⟩ | ⟨index,hindex,hnonneg,hset⟩
  · rw [hsame]
    exact .refl _
  · rw [hset]
    exact .update fun user hu => recorded_ge hkeep htrade hok hindex hnonneg hu

theorem recordTradeIndex_stored (hkeep : d.keepsIndex users m = true)
    (htrade : m.message.action.isTrade = true) (hpos : 0 < m.message.tradeIndexOrZero)
    (hok : (checkTradeIndex T d.faults users m).2 = .ok ()) {fault : Bool}
    (hdone : (recordTradeIndex fault d.path (checkTradeIndex T d.faults users m).1 m).2 = .ok ()) :
    ∃ user, isUserPresent
      (recordTradeIndex fault d.path (checkTradeIndex T d.faults users m).1 m).1 m.identity =
        some user ∧ m.message.tradeIndexOrZero ≤ user.lastTradeIndex := by
  rcases recordTradeIndex_users fault d.path (checkTradeIndex T d.faults users m).1 m with
    ⟨_,hrepeat⟩ | ⟨index,hindex,_,hset⟩
  · simp only [Delivery.keepsIndex,Bool.and_eq_true] at hkeep
    have hnot := hkeep.2
    simp [hrepeat hdone,not_le.mpr hpos] at hnot
  · obtain ⟨_,user,hu,_⟩ := keepsIndex_fresh hkeep htrade hpos hok
    rw [hset,isUserPresent_update,hu]
    refine ⟨_,rfl,?_⟩
    simp [isUserPresent_pubkey hu,resolveTradeIndex_eq hindex]

end

section

variable {T : Transport} {cfg : Settings} {s : Intake}

theorem passGate_users (T : Transport) (cfg : Settings) (s : Intake) (event : Event) (now : Int) :
    (s.passGate T cfg event now).1.users = s.users ∧
      (s.passGate T cfg event now).1.accepted = s.accepted := by
  unfold Intake.passGate
  split <;> exact ⟨rfl,rfl⟩

theorem decodeFresh_unwrapped {event : Event} {now : Int} {m : UnwrappedMessage}
    (h : decodeFresh T event now = some m) : T.unwrapIncoming event = .ok (some m) := by
  unfold decodeFresh at h
  split at h
  next m' hm =>
    split at h
    · cases h
    · split at h
      · cases h
      · cases h
        exact hm
  next => cases h

theorem acceptEvent_users (T : Transport) (cfg : Settings) (d : Delivery) (s : Intake) :
    let out := acceptEvent T cfg d s
    out.1.accepted = s.accepted ∧
      ((out.1.users = s.users ∧ out.2 = none) ∨ ∃ m, T.unwrapIncoming d.event = .ok (some m) ∧
        out.1.users = (checkTradeIndex T d.faults s.users m).1 ∧
        ∀ m', out.2 = some m' → m' = m ∧ (checkTradeIndex T d.faults s.users m).2 = .ok ()) := by
  obtain ⟨husers,haccepted⟩ := passGate_users T cfg s d.event d.gateNow
  unfold acceptEvent
  dsimp only
  split
  · exact ⟨rfl,.inl ⟨rfl,rfl⟩⟩
  · split
    · exact ⟨haccepted,.inl ⟨husers,rfl⟩⟩
    · split
      · exact ⟨haccepted,.inl ⟨husers,rfl⟩⟩
      next m hm =>
        rw [husers]
        split
        · exact ⟨haccepted,.inr ⟨m,decodeFresh_unwrapped hm,rfl,nofun⟩⟩
        next hok =>
          refine ⟨haccepted,.inr ⟨m,decodeFresh_unwrapped hm,rfl,fun m' hm' => ?_⟩⟩
          split at hm'
          · exact ⟨(Option.some.inj hm').symm,hok⟩
          · cases hm'

/-- Every positive index that was accepted is stored or passed by, and none was accepted twice. -/
structure IndicesRecorded (s : Intake) : Prop where
  stored : ∀ a ∈ s.accepted, 0 < a.2 →
    ∃ user, isUserPresent s.users a.1 = some user ∧ a.2 ≤ user.lastTradeIndex
  nodup : (s.accepted.filter fun a => decide (0 < a.2)).Nodup

theorem IndicesRecorded.grow {s' : Intake} (h : IndicesRecorded s)
    (hg : UsersGrow s.users s'.users) (ha : s'.accepted = s.accepted) : IndicesRecorded s' := by
  refine ⟨fun a hmem hpos => ?_,ha ▸ h.nodup⟩
  obtain ⟨user,hu,hle⟩ := h.stored a (ha ▸ hmem) hpos
  obtain ⟨user',hu',hle'⟩ := hg a.1 user hu
  exact ⟨user',hu',hle.trans hle'⟩

theorem dispatch_grows {s' : Intake} {d : Delivery} {m : UnwrappedMessage}
    (hkeep : m.message.action.isTrade = true → d.keepsIndex s.users m = true)
    (hok : (checkTradeIndex T d.faults s.users m).2 = .ok ())
    (hs : s'.users = (checkTradeIndex T d.faults s.users m).1) (ha : s'.accepted = s.accepted) :
    UsersGrow s.users (dispatch d m s').users ∧
      (IndicesRecorded s → IndicesRecorded (dispatch d m s')) := by
  have hchecked : UsersGrow s.users s'.users := hs ▸ checkTradeIndex_grows
  unfold dispatch
  dsimp only
  split
  next htrade =>
    rw [hs]
    have hgrow := recordTradeIndex_grows (hkeep htrade) htrade hok d.faults.updateUserTradeIndex
    have hgrow := (hs ▸ hchecked).trans hgrow
    split
    next hdone =>
      refine ⟨hgrow,fun h => ⟨fun a hmem hpos => ?_,?_⟩⟩
      · rcases List.mem_cons.mp hmem with rfl | hmem
        · exact recordTradeIndex_stored (hkeep htrade) htrade hpos hok hdone
        · obtain ⟨user,hu,hle⟩ := h.stored a (ha ▸ hmem) hpos
          obtain ⟨user',hu',hle'⟩ := hgrow a.1 user hu
          exact ⟨user',hu',hle.trans hle'⟩
      · dsimp only
        rw [ha]
        by_cases hpos : 0 < m.message.tradeIndexOrZero
        · rw [List.filter_cons_of_pos (by simpa using hpos)]
          refine List.nodup_cons.mpr ⟨fun hmem => ?_,h.nodup⟩
          -- an index accepted before is not above the stored one
          obtain ⟨user,hu,hle⟩ := h.stored _ (List.mem_of_mem_filter hmem) hpos
          have hlt := (keepsIndex_fresh (hkeep htrade) htrade hpos hok).1 user hu
          exact absurd hle (not_le.mpr hlt)
        · rw [List.filter_cons_of_neg (by simpa using hpos)]
          exact h.nodup
    · exact ⟨hgrow,fun h => h.grow hgrow ha⟩
  · exact ⟨hchecked,fun h => h.grow hchecked ha⟩

theorem step_grows (cfg : Settings) {e : Happening} (hkeep : e.keepsIndex T s.users = true) :
    UsersGrow s.users (step T cfg s e).users ∧
      (IndicesRecorded s → IndicesRecorded (step T cfg s e)) := by
  cases e with
  | refreshKnown keys => exact ⟨.refl _,fun h => h.grow (.refl _) rfl⟩
  | deliver d =>
    obtain ⟨ha,hcase⟩ := acceptEvent_users T cfg d s
    simp only [step,deliver]
    generalize acceptEvent T cfg d s = out at ha hcase
    obtain ⟨s',accepted⟩ := out
    rcases hcase with ⟨hsame,hnone⟩ | ⟨m,hm,hs,hok⟩
    · obtain rfl : accepted = none := hnone
      have hgrow : UsersGrow s.users s'.users := hsame.symm ▸ .refl _
      exact ⟨hgrow,fun h => h.grow hgrow ha⟩
    · cases accepted with
      | none =>
        have hgrow : UsersGrow s.users s'.users := hs.symm ▸ checkTradeIndex_grows
        exact ⟨hgrow,fun h => h.grow hgrow ha⟩
      | some m' =>
        obtain ⟨rfl,hok⟩ := hok m' rfl
        simp only [Happening.keepsIndex,hm,Bool.or_eq_true,Bool.not_eq_true'] at hkeep
        refine dispatch_grows (fun htrade => hkeep.resolve_left ?_) hok hs ha
        simp [htrade]

theorem run_grows {hs : List Happening} (hkeep : keepsIndices T cfg s hs = true) :
    UsersGrow s.users (run T cfg s hs).users ∧
      (IndicesRecorded s → IndicesRecorded (run T cfg s hs)) := by
  induction hs generalizing s with
  | nil => exact ⟨.refl _,fun h => h⟩
  | cons e rest ih =>
    obtain ⟨hfirst,hrest⟩ := Bool.and_eq_true_iff.mp hkeep
    obtain ⟨hgrow,hinv⟩ := step_grows cfg hfirst
    obtain ⟨hgrow',hinv'⟩ := ih hrest
    exact ⟨hgrow.trans hgrow',fun h => hinv' (hinv h)⟩

theorem keepsIndices_append {before after : List Happening}
    (h : keepsIndices T cfg s (before ++ after) = true) :
    keepsIndices T cfg (run T cfg s before) after = true := by
  induction before generalizing s with
  | nil => exact h
  | cons e rest ih => exact ih (Bool.and_eq_true_iff.mp h).2

/-- In a run whose messages meet the requirement no stored index goes down, and no positive index is
accepted twice for one identity. -/
theorem trade_indices_monotone {hs : List Happening} (hempty : s.accepted = [])
    (hkeep : keepsIndices T cfg s hs = true) :
    (∀ before after, hs = before ++ after → ∀ id user,
      isUserPresent (run T cfg s before).users id = some user →
      ∃ user', isUserPresent (run T cfg s hs).users id = some user' ∧
        user.lastTradeIndex ≤ user'.lastTradeIndex) ∧
    ((run T cfg s hs).accepted.filter fun a => decide (0 < a.2)).Nodup := by
  have hstart : IndicesRecorded s := by
    refine ⟨fun a ha => ?_,?_⟩
    · rw [hempty] at ha
      cases ha
    · rw [hempty]
      exact List.nodup_nil
  refine ⟨?_,((run_grows hkeep).2 hstart).nodup⟩
  rintro before after rfl id user hu
  rw [run,List.foldl_append]
  exact (run_grows (keepsIndices_append hkeep)).1 id user hu

end

def indexTransport : Transport where
  checkPow _ _ := true
  verify _ := true
  unwrapIncoming e := .ok (some
    ⟨⟨.newOrder,if e.content = 0 then none else some (e.content - 1),0⟩,e.createdAt,1,e.pubkey,
      some 0⟩)
  asJson _ := some 0
  verifySignature _ _ _ := true
  messageVerify _ := true

def newOrderOf (key : Pubkey) (content : Nat) (now : Nat) : Happening :=
  .deliver ⟨⟨now,key,now,14,content,0⟩,now,now,{},.proceeds⟩

theorem indices_accepted_once :
    let hs := [newOrderOf 11 2 100,newOrderOf 12 3 200,newOrderOf 13 3 300]
    let s := run indexTransport ⟨0,0,14⟩ (.start []) hs
    s.accepted = [(1,2),(1,1)] ∧ (s.accepted.filter fun a => decide (0 < a.2)).Nodup :=
  ⟨by decide +kernel,(trade_indices_monotone rfl (by decide +kernel)).2⟩

/-- A new order with the index 5, one with the index 0, and one with the index 5 again: the second
resets the stored index and the third is accepted.  And an unknown user who trades under their own
identity is accepted with the same index as often as they like. -/
theorem index_accepted_twice :
    (let s := fun hs => run indexTransport ⟨0,0,14⟩ (.start []) hs
      let hs := [newOrderOf 11 6 100,newOrderOf 12 1 200,newOrderOf 13 6 300]
      isUserPresent (s (hs.take 1)).users 1 = some ⟨1,5⟩ ∧
      isUserPresent (s (hs.take 2)).users 1 = some ⟨1,0⟩ ∧ (s hs).accepted = [(1,5),(1,0),(1,5)]) ∧
    (run indexTransport ⟨0,0,14⟩ (.start [])
      [newOrderOf 1 6 100,newOrderOf 1 6 200]).accepted = [(1,5),(1,5)] := by
  decide +kernel

end Mostro.EventLoop
