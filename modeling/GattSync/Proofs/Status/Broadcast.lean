import GattSync.Status.Feed
import Mathlib.Order.Bounds.Basic
import Mathlib.Data.List.Induction
import Mathlib.Algebra.Group.Nat.Defs

/-!
# What reaches the subscribers of a feed

Anything may be done with a feed in any order, through any of its handles and by any of its
subscribers (`Happening`, `Run`). What each subscriber is told is accounted for by the publications
that were made after it subscribed (`run_accounts`): it is told them in order, each once, or told
how many it has missed (`unread?`). A receipt says no more than what was due (`IsDue`): there is a
gap only when more were unread than the feed holds, and the end only when nothing is unread and
nobody can publish any more.

A feed remembers the last publications only, and it forgets what is sent while nobody listens. So
the invariant (`Reflects`) is about all publications that have entered it: what a subscriber that
listens has not read is those behind its cursor, and what the feed holds is the last of them.
-/

namespace GattSync.Status

/-- What is left of some publications when a receipt has told of the first ones of them. No
publication is told of that is not the next one, and none are skipped that are not there. -/
def Receipt.take? : Receipt → List Publication → Option (List Publication)
  | .publication q, p :: ps => if q = p then some ps else none
  | .publication _, [] => none
  | .lagged missed, ps => if 0 < missed ∧ missed ≤ ps.length then some (ps.drop missed) else none
  | .empty, ps | .closed, ps => some ps

/-- What is left of some publications after receipts, one after the other. -/
def unread? (rs : List Receipt) (ps : List Publication) : Option (List Publication) :=
  rs.foldlM (fun ps r => r.take? ps) ps

/-- What can be received when so much is unread of a feed of such a bound; `inUse` says whether
anyone can still publish to it. -/
def IsDue (bound : Nat) (unread : List Publication) (inUse : Prop) : Receipt → Prop
  | .publication p => unread.length ≤ bound ∧ unread.head? = some p
  | .lagged missed => bound < unread.length ∧ missed = unread.length - bound
  | .empty => unread = [] ∧ inUse
  | .closed => unread = [] ∧ ¬inUse

/-- Publications that come in behind do not matter to a receipt. -/
theorem Receipt.take?_append {r : Receipt} {ps us : List Publication} (h : r.take? ps = some us)
    (qs : List Publication) : r.take? (ps ++ qs) = some (us ++ qs) := by
  cases r with
  | publication q =>
    cases ps with
    | nil => cases h
    | cons p ps =>
      obtain ⟨hq, hu⟩ := Option.ite_none_right_eq_some.mp h
      obtain rfl := Option.some.inj hu
      exact if_pos hq
  | lagged missed =>
    obtain ⟨⟨hpos, hle⟩, hu⟩ := Option.ite_none_right_eq_some.mp h
    obtain rfl := Option.some.inj hu
    rw [← List.drop_append_of_le_length hle]
    exact if_pos ⟨hpos, Nat.le_trans hle (List.length_append ▸ Nat.le_add_right _ _)⟩
  | empty => exact congrArg (some <| · ++ qs) (Option.some.inj h)
  | closed => exact congrArg (some <| · ++ qs) (Option.some.inj h)

/-- What is due can be taken. -/
theorem IsDue.take? {bound : Nat} {unread : List Publication} {inUse : Prop} {r : Receipt}
    (h : IsDue bound unread inUse r) : ∃ left, r.take? unread = some left := by
  cases r with
  | publication p =>
    obtain ⟨ps, rfl⟩ := List.head?_eq_some_iff.mp h.2
    exact ⟨ps, if_pos rfl⟩
  | lagged missed =>
    obtain ⟨more, rfl⟩ := h
    exact ⟨_, if_pos ⟨by omega, by omega⟩⟩
  | empty => exact ⟨unread, rfl⟩
  | closed => exact ⟨unread, rfl⟩

section Unread

variable {rs : List Receipt} {r : Receipt} {ps us : List Publication}

theorem unread?_append (h : unread? rs ps = some us) (qs : List Publication) :
    unread? rs (ps ++ qs) = some (us ++ qs) := by
  induction rs generalizing ps with
  | nil =>
    obtain rfl := Option.some.inj h
    rfl
  | cons r rs ih =>
    obtain ⟨left, taken, h⟩ := Option.bind_eq_some_iff.mp h
    exact Option.bind_eq_some_iff.mpr ⟨left ++ qs, Receipt.take?_append taken qs, ih h⟩

theorem unread?_concat (h : unread? rs ps = some us) : unread? (rs ++ [r]) ps = r.take? us := by
  unfold unread? at h ⊢
  rw [List.foldlM_append, h]
  exact bind_pure (r.take? us)

end Unread

namespace Feed

/-! ## What is done with a feed -/

/-- Something that is done through a handle of a feed or by a subscriber. Handles and subscribers
that come about are named with it. -/
inductive Happening where
  | published (handle : Nat) (p : Publication)
  | subscribed (handle subscriber : Nat)
  | unsubscribed (subscriber : Nat)
  | cloned (handle new : Nat)
  | dropped (handle : Nat)
  | received (subscriber : Nat) (r : Receipt)
  deriving DecidableEq

/-- What a handle in use and a subscriber that listens can do. -/
inductive Happens (f : Feed) : Happening → Feed → Prop where
  | publish {handle} (p : Publication) (inUse : f.handles[handle]? = some true) :
      Happens f (.published handle p) (f.publish p)
  | subscribe {handle} (inUse : f.handles[handle]? = some true) :
      Happens f (.subscribed handle f.subscribe.1) f.subscribe.2
  | unsubscribe {s c} (listens : f.cursors[s]? = some (some c)) :
      Happens f (.unsubscribed s) (f.unsubscribe s)
  | clone {handle} (inUse : f.handles[handle]? = some true) :
      Happens f (.cloned handle f.clone.1) f.clone.2
  | drop {handle} (inUse : f.handles[handle]? = some true) :
      Happens f (.dropped handle) (f.drop handle)
  | receive {s c} (listens : f.cursors[s]? = some (some c)) :
      Happens f (.received s (f.receive s).1) (f.receive s).2

/-- What has happened to a feed of this capacity since it was made. -/
inductive Run (capacity : Nat) : List Happening → Feed → Prop where
  | made {f} (h : create? capacity = some f) : Run capacity [] f
  | snoc {hs f h g} (run : Run capacity hs f) (next : Happens f h g) : Run capacity (hs ++ [h]) g

/-- The publications made, through whichever handle. -/
def published (hs : List Happening) : List Publication :=
  hs.filterMap fun
    | .published _ p => some p
    | _ => none

/-- What a subscriber has received. -/
def receipts (s : Nat) (hs : List Happening) : List Receipt :=
  hs.filterMap fun
    | .received t r => if t = s then some r else none
    | _ => none

/-- A handle was made, or is the first one, and has not been dropped. -/
def InUse (hs : List Happening) (handle : Nat) : Prop :=
  (handle = 0 ∨ ∃ g, .cloned g handle ∈ hs) ∧ .dropped handle ∉ hs

variable {f g : Feed} {hs before after : List Happening} {h : Happening} {p : Publication}
  {handle s t cursor : Nat} {entered : List Publication}

@[simp] theorem published_append :
    published (before ++ after) = published before ++ published after :=
  List.filterMap_append

@[simp] theorem receipts_append :
    receipts s (before ++ after) = receipts s before ++ receipts s after :=
  List.filterMap_append

theorem receipts_received_self (s : Nat) (r : Receipt) : receipts s [.received s r] = [r] := by
  simp [receipts]

theorem receipts_received_of_ne (ne : t ≠ s) (r : Receipt) : receipts s [.received t r] = [] := by
  simp [receipts, ne]

/-- What was first done in a run was done with a feed that had come about in the run before it. -/
theorem Run.exists_happens {capacity : Nat} (run : Run capacity (before ++ h :: after) f) :
    ∃ f₁ f₂, Run capacity before f₁ ∧ Happens f₁ h f₂ := by
  induction after using List.reverseRecOn generalizing f with
  | nil =>
    generalize split : before ++ [h] = hs at run
    cases run with
    | made => simp at split
    | snoc run next =>
      obtain ⟨rfl, rfl⟩ := List.append_singleton_inj.mp split
      exact ⟨_, _, run, next⟩
  | append_singleton after last ih =>
    rw [← List.cons_append, ← List.append_assoc] at run
    generalize split : before ++ h :: after ++ [last] = hs at run
    cases run with
    | made => simp at split
    | snoc run next =>
      obtain ⟨rfl, rfl⟩ := List.append_singleton_inj.mp split
      exact ih run

/-! ## Capacity -/

/-- The search finds the first power of two that is not below `n`, or gives up at the last
candidate. -/
theorem exists_powerOfTwo (n tries k : Nat) :
    ∃ m, powerOfTwo n tries (2 ^ k) = 2 ^ m ∧ (n ≤ 2 ^ m ∨ m = k + tries) ∧
      ∀ j, k ≤ j → n ≤ 2 ^ j → m ≤ j := by
  induction tries generalizing k with
  | zero => exact ⟨k, rfl, .inr rfl, fun j hj _ => hj⟩
  | succ tries ih =>
    unfold powerOfTwo
    split
    · case isTrue le => exact ⟨k, rfl, .inl le, fun j hj _ => hj⟩
    · case isFalse lt =>
      rw [← Nat.pow_succ']
      obtain ⟨m, hm, found, least⟩ := ih (k + 1)
      refine ⟨m, hm, ?_, fun j hj le => least j (Nat.lt_of_le_of_ne hj ?_) le⟩
      · omega
      · rintro rfl
        exact lt le

/-- A feed holds as many publications as its capacity says, rounded up to a power of two. -/
theorem isLeast_bound {capacity : Nat} (h : create? capacity = some f) :
    IsLeast {b | (∃ k, b = 2 ^ k) ∧ capacity ≤ b} f.bound := by
  obtain ⟨fits, made⟩ := Option.ite_none_left_eq_some.mp h
  obtain rfl := Option.some.inj made
  obtain ⟨m, hm, found, least⟩ := exists_powerOfTwo capacity 63 0
  have small : m < 63 := by
    rw [← Nat.pow_lt_pow_iff_right Nat.one_lt_two, ← hm]
    simp only [storageLimit, slotSize, Nat.pow_eq, Nat.pow_zero] at fits ⊢
    omega
  refine ⟨⟨⟨m, hm⟩, ?_⟩, ?_⟩
  · show capacity ≤ powerOfTwo capacity 63 (2 ^ 0)
    omega
  · rintro b ⟨⟨j, rfl⟩, le⟩
    show powerOfTwo capacity 63 (2 ^ 0) ≤ 2 ^ j
    rw [hm]
    exact Nat.pow_le_pow_right Nat.two_pos (least j j.zero_le le)

/-! ## Handles -/

theorem isClosed_eq_false_iff :
    f.isClosed = false ↔ ∃ handle : Nat, f.handles[handle]? = some true := by
  simp [isClosed, List.mem_iff_getElem?]

/-- The handles that a feed has in use are those of its history. -/
structure Keeps (hs : List Happening) (f : Feed) : Prop where
  inUse : ∀ handle, f.handles[handle]? = some true ↔ InUse hs handle
  made : ∀ handle, .dropped handle ∈ hs → handle < f.handles.length

theorem keeps_made {bound : Nat} : Keeps [] { bound } where
  inUse handle := by cases handle <;> simp [InUse]
  made handle h := by cases h

/-- Only cloning and dropping matter to the handles. -/
theorem Keeps.of_handles_eq (k : Keeps hs f) (same : g.handles = f.handles)
    (notCloned : ∀ handle new, h ≠ .cloned handle new)
    (notDropped : ∀ handle, h ≠ .dropped handle) :
    Keeps (hs ++ [h]) g where
  inUse handle := by
    rw [same, k.inUse handle]
    simp [InUse, (notCloned _ _).symm, (notDropped _).symm]
  made handle dropped := by
    rw [same]
    apply k.made
    simpa [(notDropped _).symm] using dropped

theorem Keeps.clone (k : Keeps hs f) (handle : Nat) :
    Keeps (hs ++ [.cloned handle f.clone.1]) f.clone.2 where
  inUse x := by
    show (f.handles ++ [true])[x]? = some true ↔ InUse (hs ++ [.cloned handle f.handles.length]) x
    by_cases new : x = f.handles.length
    · subst new
      have fresh : .dropped f.handles.length ∉ hs := fun dropped =>
        Nat.lt_irrefl _ (k.made _ dropped)
      simp [InUse, fresh]
    · have old : (f.handles ++ [true])[x]? = f.handles[x]? := by
        grind
      rw [old, k.inUse x]
      simp [InUse, new]
  made x dropped := by
    have : x < f.handles.length := k.made x (by simpa using dropped)
    exact Nat.lt_of_lt_of_le this (by simp [Feed.clone])

theorem Keeps.drop (k : Keeps hs f) (inUse : f.handles[handle]? = some true) :
    Keeps (hs ++ [.dropped handle]) (f.drop handle) where
  inUse x := by
    show (f.handles.set handle false)[x]? = some true ↔ _
    by_cases gone : handle = x
    · subst gone
      simp [InUse, List.getElem?_set]
    · rw [List.getElem?_set_ne gone, k.inUse x]
      simp [InUse, Ne.symm gone]
  made x dropped := by
    have length : (f.drop handle).handles.length = f.handles.length := List.length_set
    rw [length]
    rcases List.mem_append.mp dropped with earlier | now
    · exact k.made x earlier
    · obtain rfl := Happening.dropped.inj (List.mem_singleton.mp now)
      exact (List.getElem?_eq_some_iff.mp inUse).1

theorem Keeps.snoc (k : Keeps hs f) (next : Happens f h g) : Keeps (hs ++ [h]) g := by
  cases next with
  | publish => exact k.of_handles_eq (by unfold Feed.publish; split <;> rfl) nofun nofun
  | subscribe => exact k.of_handles_eq rfl nofun nofun
  | unsubscribe => exact k.of_handles_eq rfl nofun nofun
  | clone => exact k.clone _
  | drop inUse => exact k.drop inUse
  | receive => exact k.of_handles_eq (by unfold Feed.receive; grind) nofun nofun

/-! ## Publications -/

/-- What a feed holds are the last of the publications that have entered it. -/
structure Holds (entered : List Publication) (f : Feed) : Prop where
  sent : f.sent = entered.length
  held : f.held = entered.drop (entered.length - f.bound)

theorem Holds.oldest (k : Holds entered f) : f.oldest = entered.length - f.bound := by
  unfold Feed.oldest
  rw [k.sent, k.held, List.length_drop]
  omega

/-- Receiving changes nothing but where the subscriber is. -/
theorem receive_eq (f : Feed) (s : Nat) : (f.receive s).2 = f ∨
    ∃ moved, (f.receive s).2 = { f with cursors := f.cursors.set s (some moved) } := by
  unfold receive
  split
  · dsimp only
    split
    · exact .inr ⟨_, rfl⟩
    · split
      · exact .inr ⟨_, rfl⟩
      · exact .inl rfl
  · exact .inl rfl

/-- A publication enters the feed unless nobody listens. -/
def entering (f : Feed) : Happening → List Publication
  | .published _ p => if f.subscriberCount = 0 then [] else [p]
  | _ => []

theorem entering_of_unpublished (unpublished : published [h] = []) : entering f h = [] := by
  cases h with
  | published => cases unpublished
  | _ => rfl

theorem publish_of_none (unheard : f.subscriberCount = 0) (p : Publication) : f.publish p = f :=
  if_pos unheard

theorem publish_of_some (heard : f.subscriberCount ≠ 0) (p : Publication) :
    f.publish p = { f with sent := f.sent + 1
                           held := (f.held ++ [p]).drop ((f.held ++ [p]).length - f.bound) } :=
  if_neg heard

theorem publish_cursors (f : Feed) (p : Publication) : (f.publish p).cursors = f.cursors := by
  unfold publish
  split <;> rfl

theorem Holds.publish (k : Holds entered f) (handle : Nat) (p : Publication) :
    Holds (entered ++ entering f (.published handle p)) (f.publish p) := by
  by_cases none : f.subscriberCount = 0
  · rw [publish_of_none none, entering, if_pos none, List.append_nil]
    exact k
  · rw [publish_of_some none, entering, if_neg none]
    refine ⟨by simp [k.sent], ?_⟩
    show (f.held ++ [p]).drop _ = (entered ++ [p]).drop ((entered ++ [p]).length - f.bound)
    -- the list held is one behind the list entered, so both drop to the same place
    rw [k.held, ← List.drop_append_of_le_length (Nat.sub_le _ _), List.drop_drop]
    congr 1
    simp only [List.length_drop, List.length_append, List.length_singleton]
    omega

theorem Holds.snoc (k : Holds entered f) (next : Happens f h g) :
    Holds (entered ++ entering f h) g := by
  cases next with
  | publish p => exact k.publish _ p
  | @receive s =>
    rw [entering_of_unpublished rfl, List.append_nil]
    rcases receive_eq f s with same | ⟨moved, same⟩ <;> rw [same] <;> exact ⟨k.sent, k.held⟩
  | _ => exact (List.append_nil entered).symm ▸ ⟨k.sent, k.held⟩

/-! ## Receipts -/

/-- A receipt is what was due, and the cursor moves past what it tells of. -/
structure Advances (entered : List Publication) (f : Feed) (s cursor : Nat) (r : Receipt)
    (g : Feed) : Prop where
  due : IsDue f.bound (entered.drop cursor) (f.isClosed = false) r
  moves : ∃ moved, moved ≤ entered.length ∧
    r.take? (entered.drop cursor) = some (entered.drop moved) ∧
    g.cursors = f.cursors.set s (some moved)

section Receive

variable (k : Holds entered f) (listens : f.cursors[s]? = some (some cursor))
include k listens

theorem Holds.receive_behind (behind : cursor < f.oldest) :
    Advances entered f s cursor (f.receive s).1 (f.receive s).2 := by
  have receive : f.receive s = (.lagged (f.oldest - cursor),
      { f with cursors := f.cursors.set s (some f.oldest) }) := by
    simp [Feed.receive, listens, behind]
  have oldest := k.oldest
  have length : (entered.drop cursor).length = entered.length - cursor := List.length_drop
  have rest : (entered.drop cursor).drop (f.oldest - cursor) = entered.drop f.oldest := by
    rw [List.drop_drop]
    congr 1
    omega
  rw [receive]
  exact ⟨⟨by omega, by omega⟩, f.oldest, by omega, rest ▸ if_pos ⟨by omega, by omega⟩, rfl⟩

omit listens in
/-- What is held at a cursor that is not behind is what entered there. -/
theorem Holds.getElem?_held (level : f.oldest ≤ cursor) :
    f.held[cursor - f.oldest]? = entered[cursor]? := by
  rw [k.held, ← k.oldest, List.getElem?_drop]
  congr 1
  omega

theorem Holds.receive_inside (level : f.oldest ≤ cursor) (inside : cursor < entered.length) :
    Advances entered f s cursor (f.receive s).1 (f.receive s).2 := by
  have next := k.getElem?_held level
  have receive : f.receive s = (.publication entered[cursor],
      { f with cursors := f.cursors.set s (some (cursor + 1)) }) := by
    simp [Feed.receive, listens, Nat.not_lt.mpr level, next, inside]
  have oldest := k.oldest
  have unread := List.drop_eq_getElem_cons inside
  rw [receive]
  refine ⟨⟨?_, by rw [unread]; rfl⟩, cursor + 1, inside, by rw [unread]; exact if_pos rfl, rfl⟩
  rw [List.length_drop]
  omega

theorem Holds.receive_level (level : f.oldest ≤ cursor) (all : entered.length ≤ cursor)
    (le : cursor ≤ entered.length) :
    Advances entered f s cursor (f.receive s).1 (f.receive s).2 := by
  have next := k.getElem?_held level
  have receive : f.receive s = (if f.isClosed then .closed else .empty, f) := by
    simp [Feed.receive, listens, Nat.not_lt.mpr level, next, all]
  have behind : entered.drop cursor = [] := List.drop_eq_nil_of_le all
  have same : f.cursors = f.cursors.set s (some cursor) := by
    obtain ⟨lt, eq⟩ := List.getElem?_eq_some_iff.mp listens
    rw [← eq, List.set_getElem_self]
  rw [receive]
  refine ⟨?_, cursor, le, ?_, same⟩
  · rw [behind]
    split <;> rename_i closed <;> simp [IsDue, closed]
  · split <;> rfl

theorem Holds.receive (le : cursor ≤ entered.length) :
    Advances entered f s cursor (f.receive s).1 (f.receive s).2 := by
  rcases Nat.lt_or_ge cursor f.oldest with behind | level
  · exact k.receive_behind listens behind
  · rcases Nat.lt_or_ge cursor entered.length with inside | all
    · exact k.receive_inside listens level inside
    · exact k.receive_level listens level all le

end Receive

/-! ## Subscribers -/

/-- What a subscriber has been told since it subscribed leaves some publications unread. While it
listens, these are all that entered the feed behind its cursor. -/
structure Follows (s : Nat) (since : List Happening) (entered : List Publication) (f : Feed) :
    Prop where
  known : s < f.cursors.length
  accounted : ∃ unread, unread? (receipts s since) (published since) = some unread ∧
    ∀ {cursor}, f.cursors[s]? = some (some cursor) →
      cursor ≤ entered.length ∧ unread = entered.drop cursor

variable {since : List Happening}

theorem Holds.follows_subscribe (k : Holds entered f) :
    Follows f.cursors.length [] entered f.subscribe.2 where
  known := by simp [Feed.subscribe]
  accounted := by
    refine ⟨[], rfl, fun {cursor} at_ => ?_⟩
    obtain rfl : f.sent = cursor := by simpa [Feed.subscribe] using at_
    rw [k.sent]
    exact ⟨Nat.le_refl _, List.drop_length.symm⟩

/-- What is neither a publication nor a receipt of the subscriber leaves it where it is, or ends
its subscription. -/
theorem Follows.of_quiet (k : Follows s since entered f)
    (known : f.cursors.length ≤ g.cursors.length)
    (same : ∀ {cursor : Nat}, g.cursors[s]? = some (some cursor) →
      f.cursors[s]? = some (some cursor))
    (unpublished : published [h] = []) (unreceived : receipts s [h] = []) :
    Follows s (since ++ [h]) (entered ++ entering f h) g where
  known := Nat.lt_of_lt_of_le k.known known
  accounted := by
    rw [published_append, receipts_append, unreceived, unpublished,
      entering_of_unpublished unpublished]
    simp only [List.append_nil]
    obtain ⟨unread, account, listens⟩ := k.accounted
    exact ⟨unread, account, fun at_ => listens (same at_)⟩

theorem Follows.publish (k : Follows s since entered f) (handle : Nat) (p : Publication) :
    Follows s (since ++ [.published handle p])
      (entered ++ entering f (.published handle p)) (f.publish p) where
  known := publish_cursors f p ▸ k.known
  accounted := by
    obtain ⟨unread, account, listens⟩ := k.accounted
    rw [published_append, receipts_append]
    refine ⟨unread ++ [p], (List.append_nil (receipts s since)).symm ▸ unread?_append account [p],
      fun {cursor} at_ => ?_⟩
    rw [publish_cursors] at at_
    have heard : f.subscriberCount ≠ 0 :=
      Nat.pos_iff_ne_zero.mp (List.countP_pos_iff.mpr ⟨_, List.mem_of_getElem? at_, rfl⟩)
    obtain ⟨le, rfl⟩ := listens at_
    rw [entering, if_neg heard, List.drop_append_of_le_length le]
    exact ⟨by simp; omega, rfl⟩

theorem Follows.receive (k : Follows s since entered f) (holds : Holds entered f)
    (listens : f.cursors[s]? = some (some cursor)) :
    Follows s (since ++ [.received s (f.receive s).1]) entered (f.receive s).2 := by
  obtain ⟨unread, account, behind⟩ := k.accounted
  obtain ⟨le, rfl⟩ := behind listens
  obtain ⟨-, moved, inside, taken, moves⟩ := holds.receive listens le
  have set : (f.receive s).2.cursors[s]? = some (some moved) := by
    rw [moves, List.getElem?_set_self k.known]
  refine ⟨by simpa [moves] using k.known, entered.drop moved, ?_, fun {other} at_ => ?_⟩
  · rw [published_append, receipts_append, receipts_received_self, unread?_concat]
    · exact taken
    · exact (List.append_nil (published since)).symm ▸ account
  · obtain rfl : moved = other := by simpa using set.symm.trans at_
    exact ⟨inside, rfl⟩

theorem Follows.receive_of_ne (k : Follows s since entered f) (ne : t ≠ s) :
    Follows s (since ++ [.received t (f.receive t).1])
      (entered ++ entering f (.received t (f.receive t).1)) (f.receive t).2 := by
  have unreceived := receipts_received_of_ne ne (f.receive t).1
  rcases receive_eq f t with same | ⟨moved, same⟩
  · rw [same]
    exact k.of_quiet (Nat.le_refl _) id rfl unreceived
  · refine k.of_quiet (by simp [same]) (fun at_ => ?_) rfl unreceived
    rwa [same, List.getElem?_set_ne ne] at at_

theorem Follows.snoc (k : Follows s since entered f) (holds : Holds entered f)
    (next : Happens f h g) : Follows s (since ++ [h]) (entered ++ entering f h) g := by
  cases next with
  | publish p => exact k.publish _ p
  | subscribe =>
    refine k.of_quiet (by simp [Feed.subscribe]) (fun at_ => ?_) rfl rfl
    rwa [Feed.subscribe, List.getElem?_append_left k.known] at at_
  | @unsubscribe t =>
    refine k.of_quiet (by simp [Feed.unsubscribe]) (fun at_ => ?_) rfl rfl
    rw [Feed.unsubscribe, List.getElem?_set] at at_
    split at at_
    · split at at_ <;> cases at_
    · exact at_
  | clone | drop => exact k.of_quiet (Nat.le_refl _) id rfl rfl
  | @receive t cursor listens =>
    by_cases own : t = s
    · subst own
      rw [entering_of_unpublished rfl, List.append_nil]
      exact k.receive holds listens
    · exact k.receive_of_ne own

/-! ## Runs -/

/-- What a feed has of its history. -/
structure Reflects (hs : List Happening) (entered : List Publication) (f : Feed) : Prop where
  keeps : Keeps hs f
  holds : Holds entered f
  follows : ∀ before handle s since, hs = before ++ .subscribed handle s :: since →
    Follows s since entered f

theorem Reflects.snoc (k : Reflects hs entered f) (next : Happens f h g) :
    Reflects (hs ++ [h]) (entered ++ entering f h) g where
  keeps := k.keeps.snoc next
  holds := k.holds.snoc next
  follows before handle s since split := by
    rcases List.eq_nil_or_concat since with rfl | ⟨earlier, last, rfl⟩
    · obtain ⟨rfl, rfl⟩ := List.append_singleton_inj.mp split
      cases next with
      | subscribe =>
        rw [entering_of_unpublished rfl, List.append_nil]
        exact k.holds.follows_subscribe
    · rw [List.concat_eq_append, ← List.cons_append, ← List.append_assoc] at split
      obtain ⟨rfl, rfl⟩ := List.append_singleton_inj.mp split
      rw [List.concat_eq_append]
      exact (k.follows before handle s earlier rfl).snoc k.holds next

theorem Run.exists_reflects {capacity : Nat} (run : Run capacity hs f) :
    ∃ entered, Reflects hs entered f := by
  induction run with
  | made h =>
    obtain ⟨-, made⟩ := Option.ite_none_left_eq_some.mp h
    obtain rfl := Option.some.inj made
    exact ⟨[], keeps_made, ⟨rfl, List.drop_nil.symm⟩, fun before _ _ _ split => by simp at split⟩
  | snoc run next ih =>
    obtain ⟨entered, k⟩ := ih
    exact ⟨_, k.snoc next⟩

theorem Happens.bound_eq (next : Happens f h g) : g.bound = f.bound := by
  cases next with
  | publish =>
    unfold Feed.publish
    split <;> rfl
  | @receive s => rcases receive_eq f s with same | ⟨moved, same⟩ <;> rw [same]
  | _ => rfl

theorem Run.isLeast_bound {capacity : Nat} (run : Run capacity hs f) :
    IsLeast {b | (∃ k, b = 2 ^ k) ∧ capacity ≤ b} f.bound := by
  induction run with
  | made h => exact Feed.isLeast_bound h
  | snoc run next ih => rwa [next.bound_eq]

/-- What the subscribers of a feed are told. -/
structure Accounts (bound : Nat) (hs : List Happening) : Prop where
  /-- The receipts since it subscribed are about the publications since then, in order and each
  once, up to those it has not read. -/
  told : ∀ {before handle s since}, hs = before ++ .subscribed handle s :: since →
    ∃ unread, unread? (receipts s since) (published since) = some unread
  /-- Each receipt is what was due when it was received. -/
  due : ∀ {before handle s since r later},
    hs = before ++ .subscribed handle s :: (since ++ .received s r :: later) →
      ∃ unread, unread? (receipts s since) (published since) = some unread ∧
        IsDue bound unread (∃ h, InUse (before ++ .subscribed handle s :: since) h) r

/-- Whatever is done with a feed, what a subscriber receives accounts for the publications that are
made after it has subscribed, and each receipt is what was due when it was received: the next
publication as it was made, as many as were unread beyond what the feed holds, or, with nothing
unread, whether a handle is still in use. -/
theorem run_accounts {capacity : Nat} (run : Run capacity hs f) :
    IsLeast {b | (∃ k, b = 2 ^ k) ∧ capacity ≤ b} f.bound ∧ Accounts f.bound hs := by
  refine ⟨run.isLeast_bound, fun split => ?_, fun {before handle s since r later} split => ?_⟩
  · obtain ⟨entered, k⟩ := run.exists_reflects
    obtain ⟨unread, account, -⟩ := (k.follows _ _ _ _ split).accounted
    exact ⟨unread, account⟩
  · subst split
    rw [← List.cons_append, ← List.append_assoc] at run
    obtain ⟨f₁, f₂, run₁, next⟩ := run.exists_happens
    have bound : f.bound = f₁.bound := run.isLeast_bound.unique run₁.isLeast_bound
    obtain ⟨entered, k⟩ := run₁.exists_reflects
    obtain ⟨unread, account, behind⟩ := (k.follows before handle s since rfl).accounted
    cases next with
    | receive listens =>
      obtain ⟨le, rfl⟩ := behind listens
      have due := (k.holds.receive listens le).due
      simp only [isClosed_eq_false_iff, k.keeps.inUse] at due
      exact ⟨_, account, bound ▸ due⟩

/-- Two handles publish faster than the subscriber reads, and are dropped. -/
def hasty (p q : Publication) : List Happening :=
  [.subscribed 0 0, .cloned 0 1, .published 0 p, .published 1 q, .received 0 (.lagged 1),
    .received 0 (.publication q), .dropped 0, .received 0 .empty, .dropped 1, .received 0 .closed]

/-- The subscriber has missed the first publication, and sees the end when both handles are
dropped. -/
theorem run_accounts_hasty :
    let p : Publication := ⟨⟨"default", "thermo-1"⟩, ⟨[⟨"level", "", "3.000000", ⟨1, 0⟩⟩]⟩⟩
    let q : Publication := ⟨⟨"default", "thermo-2"⟩, ⟨[]⟩⟩
    ∃ f, Run 1 (hasty p q) f ∧ f.bound = 1 ∧ Accounts 1 (hasty p q) := by
  intro p q
  have made : Run 1 [] ⟨1, 0, [], [true], []⟩ := .made (by decide)
  have shared : Run 1 _ ⟨1, 0, [], [true, true], [some 0]⟩ :=
    (made.snoc (h := .subscribed 0 0) (.subscribe rfl)).snoc (h := .cloned 0 1) (.clone rfl)
  have published : Run 1 _ ⟨1, 2, [q], [true, true], [some 0]⟩ :=
    (shared.snoc (h := .published 0 p) (.publish p rfl)).snoc (h := .published 1 q) (.publish q rfl)
  have received : Run 1 _ ⟨1, 2, [q], [true, true], [some 2]⟩ :=
    (published.snoc (h := .received 0 (.lagged 1)) (.receive rfl)).snoc
      (h := .received 0 (.publication q)) (.receive (c := 1) rfl)
  have half : Run 1 _ ⟨1, 2, [q], [false, true], [some 2]⟩ :=
    (received.snoc (h := .dropped 0) (.drop rfl)).snoc (h := .received 0 .empty)
      (.receive (c := 2) rfl)
  have run : Run 1 (hasty p q) ⟨1, 2, [q], [false, false], [some 2]⟩ :=
    (half.snoc (h := .dropped 1) (.drop rfl)).snoc (h := .received 0 .closed)
      (.receive (c := 2) rfl)
  exact ⟨_, run, rfl, (run_accounts run).2⟩

end Feed
end GattSync.Status
