import JsonnetPreview.Proofs.Decimal.Rounding
import JsonnetPreview.Proofs.Session.Saves
import Mathlib.Data.List.Chain

namespace JsonnetPreview

instance (e : FileEvent) (directory : Path) (place : Place) : Decidable (e.Saves directory place) :=
  decidable_of_iff (∃ path ∈ e.savedPath?, Path.place directory path = .ok place) Iff.rfl

namespace Delivery

variable {gap : Number} {last : Option Delivery} {x y : Delivery} {xs ys : List Delivery}

/-- The time from one delivery to another one is exactly a number of units. -/
def Elapsed (x y : Delivery) (n : Int) : Prop :=
  ∃ a b, x.now.units? = some a ∧ y.now.units? = some b ∧ n = b - a

def Apart (gap : Number) (x y : Delivery) : Prop :=
  ∃ k n, gap.units? = some k ∧ Elapsed x y n ∧ k < n

def Within (gap : Number) (x y : Delivery) : Prop :=
  ∃ k n, gap.units? = some k ∧ Elapsed x y n ∧ n ≤ k

theorem Elapsed.unique {m n : Int} (hm : Elapsed x y m) (hn : Elapsed x y n) : m = n := by
  obtain ⟨a, b, ha, hb, rfl⟩ := hm
  obtain ⟨a', b', ha', hb', rfl⟩ := hn
  cases ha.symm.trans ha'
  cases hb.symm.trans hb'
  rfl

theorem Apart.not_within (h : Apart gap x y) : ¬Within gap x y := by
  obtain ⟨k, n, hk, hn, hlt⟩ := h
  rintro ⟨k', n', hk', hn', hle⟩
  cases hk.symm.trans hk'
  obtain rfl := hn.unique hn'
  omega

/-- What is picked of some deliveries one by one, behind the last one that was picked before. -/
inductive Picks (gap : Number) : Option Delivery → List Delivery → List Delivery → Prop
  | nil (last : Option Delivery) : Picks gap last [] []
  | pick (last : Option Delivery) (x : Delivery) (xs ys : List Delivery)
      (h : ∀ y ∈ last, Apart gap y x) (hxs : Picks gap (some x) xs ys) :
      Picks gap last (x :: xs) (x :: ys)
  | skip (y x : Delivery) (xs ys : List Delivery) (h : Within gap y x)
      (hxs : Picks gap (some y) xs ys) : Picks gap (some y) (x :: xs) ys

theorem Picks.unique {zs : List Delivery} (hys : Picks gap last xs ys) (hzs : Picks gap last xs zs) :
    ys = zs := by
  induction hys generalizing zs with
  | nil _ =>
      cases hzs
      rfl
  | pick last x xs ys h _ ih =>
      cases hzs with
      | pick _ _ _ _ _ hxs => rw [ih hxs]
      | skip y _ _ _ h' => exact absurd h' (h y rfl).not_within
  | skip y x xs ys h _ ih =>
      cases hzs with
      | pick _ _ _ _ h' => exact absurd h (h' y rfl).not_within
      | skip _ _ _ _ _ hxs => exact ih hxs

theorem Picks.head?_eq (h : Picks gap none xs ys) : ys.head? = xs.head? := by
  cases h <;> rfl

theorem Picks.isChain (h : Picks gap last xs ys) : (last.toList ++ ys).IsChain (Apart gap) := by
  induction h with
  | nil last =>
      cases last with
      | none => exact .nil
      | some y => exact .singleton y
  | pick last x xs ys h _ ih =>
      cases last with
      | none => exact ih
      | some y => exact .cons_cons (h y rfl) ih
  | skip _ _ _ _ _ _ ih => exact ih

/-- The clock is read once for each delivery. It never goes back, and all its readings are beyond
the debounce time. -/
structure Clocked (gap : Number) (xs : List Delivery) : Prop where
  isReading : ∀ x ∈ xs, ∃ negative z, x.now = .float (.finite negative z)
  isLate : ∀ x ∈ xs, x.now.le gap = false
  sorted : xs.Pairwise fun x y => x.now.le y.now = true

theorem Clocked.sublist (h : Clocked gap ys) (hxs : xs.Sublist ys) : Clocked gap xs where
  isReading x hx := h.isReading x (hxs.subset hx)
  isLate x hx := h.isLate x (hxs.subset hx)
  sorted := h.sorted.sublist hxs

end Delivery

namespace Number

theorem units?_of_rank {a : Number} {n : Int} (h : a.rank = .between n) : a.units? = some n := by
  rw [units?, h]

theorem rank_zero : (Number.int 0).rank = .between 0 := by
  rw [rank, Int.zero_mul]

theorem exists_units {gap : Number} (hgap : (Number.int 0).le gap = true) {negative : Bool}
    {z : Magnitude} (hz : (Number.float (.finite negative z)).le gap = false) :
    negative = false ∧ ∃ k, gap.units? = some k ∧ k < z.numerator := by
  rw [le, rank_zero] at hgap
  rw [le, rank] at hz
  cases hrank : gap.rank with
  | lowest | none =>
      rw [hrank] at hgap
      cases hgap
  | highest =>
      rw [hrank] at hz
      cases hz
  | between k =>
      rw [hrank] at hgap hz
      have hk : 0 ≤ k := of_decide_eq_true hgap
      have hlt : ¬Binary64.scaled negative z ≤ k := of_decide_eq_false hz
      cases negative with
      | false => exact ⟨rfl, k, units?_of_rank hrank, Int.not_le.1 hlt⟩
      | true =>
          rw [Binary64.scaled, if_pos rfl] at hlt
          omega

theorem sub_zero (z : Magnitude) :
    (ofMagnitude z).sub (.float Binary64.zero) = .ok (ofMagnitude z) := by
  have hzero : (z.numerator : Int) - Magnitude.zero.numerator = z.numerator :=
    Int.sub_eq_iff_eq_add.2 rfl
  show (ofMagnitude z).sub (ofMagnitude .zero) = _
  rw [sub_ofMagnitude, hzero, ofScaled_natCast, Magnitude.round_numerator]
  rfl

end Number

namespace SaveHandler

open Delivery

variable {h : SaveHandler} {directory : Path} {last : Option Delivery} {x : Delivery}
  {xs : List Delivery}

/-- The time of the latest report, and zero before the first one. -/
def timeOf (last : Option Delivery) : Number := (last.map (·.now)).getD (.float Binary64.zero)

theorem exists_reading (hgap : (Number.int 0).le h.debounce = true) {zs : List Delivery}
    (hclock : Clocked h.debounce zs) {y : Delivery} (hy : y ∈ zs) :
    ∃ z k, y.now = .ofMagnitude z ∧ h.debounce.units? = some k ∧ k < z.numerator := by
  obtain ⟨negative, z, hz⟩ := hclock.isReading y hy
  have hlate := hclock.isLate y hy
  rw [hz] at hlate
  obtain ⟨rfl, k, hk, hlt⟩ := Number.exists_units hgap hlate
  exact ⟨z, k, hz, hk, hlt⟩

/-- Of a save it is decided exactly, and by the latest report alone, whether it is too soon. -/
theorem isTooSoon_cases (hgap : (Number.int 0).le h.debounce = true)
    (hlast : h.lastSaved = timeOf last) (hclock : Clocked h.debounce (last.toList ++ [x])) :
    (h.isTooSoon x.now = .ok false ∧ ∀ y ∈ last, Apart h.debounce y x) ∨
      (h.isTooSoon x.now = .ok true ∧ ∃ y, last = some y ∧ Within h.debounce y x) := by
  obtain ⟨z, k, hx, hk, hkz⟩ := exists_reading hgap hclock (y := x) (by simp)
  have hxunits : x.now.units? = some (z.numerator : Int) := by rw [hx, Number.units?_ofMagnitude]
  cases last with
  | none =>
      left
      refine ⟨isTooSoon_eq_false_iff.2 ⟨x.now, ?_, ?_⟩, nofun⟩
      · rw [hlast, hx]
        exact Number.sub_zero z
      · rw [Number.le_of_units? hxunits hk, decide_eq_false_iff_not]
        omega
  | some y =>
      obtain ⟨v, k', hy, hk', hkv⟩ := exists_reading hgap hclock (y := y) (by simp)
      cases hk.symm.trans hk'
      have hyunits : y.now.units? = some (v.numerator : Int) := by
        rw [hy, Number.units?_ofMagnitude]
      have hyx : v.numerator ≤ z.numerator := by
        have hsorted : y.now.le x.now = true := by simpa using hclock.sorted
        rw [Number.le_of_units? hyunits hxunits, decide_eq_true_iff] at hsorted
        omega
      have hdiff : Elapsed y x ((z.numerator : Int) - v.numerator) :=
        ⟨_, _, hyunits, hxunits, rfl⟩
      -- The difference may be rounded, but never from one side of the bound to the other.
      obtain ⟨elapsed, hsub, hle⟩ := Number.sub_le_iff hk hkv hyx
      have hsoon : h.isTooSoon x.now = .ok (elapsed.le h.debounce) := by
        have htime : h.lastSaved = .ofMagnitude v := hlast.trans hy
        rw [isTooSoon, htime, hx, hsub]
      rw [hsoon]
      by_cases hnear : (z.numerator : Int) - v.numerator ≤ k
      · right
        rw [hle.2 hnear]
        exact ⟨rfl, y, rfl, k, _, hk, hdiff, hnear⟩
      · left
        rw [Bool.eq_false_iff.2 (mt hle.1 hnear)]
        refine ⟨rfl, fun w hw => ?_⟩
        cases hw
        exact ⟨k, _, hk, hdiff, by omega⟩

def saves (h : SaveHandler) (directory : Path) (xs : List Delivery) : List Delivery :=
  xs.filter fun x => x.event.Saves directory h.target

theorem saves_cons_of_saves (hx : x.event.Saves directory h.target) (xs : List Delivery) :
    h.saves directory (x :: xs) = x :: h.saves directory xs :=
  List.filter_cons_of_pos (decide_eq_true hx)

theorem saves_cons_of_not_saves (hx : ¬x.event.Saves directory h.target) (xs : List Delivery) :
    h.saves directory (x :: xs) = h.saves directory xs :=
  List.filter_cons_of_neg (by simpa using hx)

theorem reports_sublist (h : SaveHandler) (directory : Path) (xs : List Delivery) :
    (h.reports directory xs).Sublist xs := by
  induction xs generalizing h with
  | nil => exact .slnil
  | cons x xs ih =>
      rcases h.next_cases directory x with ⟨hnext, -⟩ | ⟨hnext, -⟩
      · rw [reports_cons_of_reported _ hnext]
        exact (ih _).cons_cons x
      · rw [reports_cons_of_not_reported _ hnext]
        exact (ih _).cons x

theorem reports_saves (h : SaveHandler) (directory : Path) (xs : List Delivery) :
    h.reports directory (h.saves directory xs) = h.reports directory xs := by
  induction xs generalizing h with
  | nil => rfl
  | cons x xs ih =>
      by_cases hx : x.event.Saves directory h.target
      · rw [saves_cons_of_saves hx]
        rcases h.next_cases directory x with ⟨hnext, -⟩ | ⟨hnext, -⟩
        · rw [reports_cons_of_reported _ hnext, reports_cons_of_reported _ hnext]
          exact congrArg _ (ih (h.reported x.now))
        · rw [reports_cons_of_not_reported _ hnext, reports_cons_of_not_reported _ hnext, ih]
      · rw [saves_cons_of_not_saves hx, ih,
          reports_cons_of_not_reported _ (next_of_not fun hsave => hx hsave.1)]

section Clocked

variable (hgap : (Number.int 0).le h.debounce = true)

include hgap

theorem picks_reports (hlast : h.lastSaved = timeOf last)
    (hclock : Clocked h.debounce (last.toList ++ xs)) :
    Picks h.debounce last (h.saves directory xs) (h.reports directory xs) := by
  induction xs generalizing h last with
  | nil => exact .nil last
  | cons x xs ih =>
      have htail : Clocked h.debounce (last.toList ++ xs) :=
        hclock.sublist ((List.sublist_cons_self x xs).append_left _)
      by_cases hx : x.event.Saves directory h.target
      · rw [saves_cons_of_saves hx]
        have hhead : Clocked h.debounce (last.toList ++ [x]) :=
          hclock.sublist (List.Sublist.append_left (by simp) _)
        rcases isTooSoon_cases hgap hlast hhead with ⟨hnow, hapart⟩ | ⟨hnow, y, rfl, hwithin⟩
        · rw [reports_cons_of_reported _ (next_of_saves hx hnow)]
          refine .pick _ _ _ _ hapart (ih (h := h.reported x.now) hgap rfl ?_)
          exact hclock.sublist (List.sublist_append_right _ _)
        · have hnext : h.next directory x = (false, h) :=
            next_of_not fun hsave => by simp [hnow] at hsave
          rw [reports_cons_of_not_reported _ hnext]
          exact .skip _ _ _ _ hwithin (ih hgap hlast htail)
      · rw [saves_cons_of_not_saves hx,
          reports_cons_of_not_reported _ (next_of_not fun hsave => hx hsave.1)]
        exact ih hgap hlast htail

theorem reports_concat (hnew : h.lastSaved = timeOf none) {before : List Delivery}
    (hclock : Clocked h.debounce (before ++ [x])) (hx : x.event.Saves directory h.target) :
    h.reports directory (before ++ [x]) = h.reports directory before ++ [x] ∨
      h.reports directory (before ++ [x]) = h.reports directory before ∧
        ∃ y, (h.reports directory before).getLast? = some y ∧ Within h.debounce y x := by
  have hlast : (h.after directory before).lastSaved =
      timeOf (h.reports directory before).getLast? := by
    rw [after_eq, reported, latest, hnew]
    rfl
  have hsublist : (h.reports directory before).getLast?.toList.Sublist before := by
    refine List.Sublist.trans ?_ (h.reports_sublist directory before)
    cases hys : (h.reports directory before).getLast? with
    | none => exact List.nil_sublist _
    | some y => exact List.singleton_sublist.2 (List.mem_of_getLast? hys)
  have htarget : (h.after directory before).target = h.target := by rw [after_eq]; rfl
  have hdebounce : (h.after directory before).debounce = h.debounce := by rw [after_eq]; rfl
  have hclock : Clocked h.debounce ((h.reports directory before).getLast?.toList ++ [x]) :=
    hclock.sublist (hsublist.append_right _)
  rw [← hdebounce] at hgap hclock ⊢
  rw [← htarget] at hx
  rw [reports_append]
  rcases isTooSoon_cases hgap hlast hclock with ⟨hnow, -⟩ | ⟨hnow, hwithin⟩
  · left
    rw [reports_cons_of_reported _ (next_of_saves hx hnow)]
    rfl
  · right
    refine ⟨?_, hwithin⟩
    have hnext : (h.after directory before).next directory x = (false, h.after directory before) :=
      next_of_not fun hsave => by simp [hnow] at hsave
    rw [reports_cons_of_not_reported _ hnext]
    exact List.append_nil _

end Clocked

/-- The reports of a new handler are the saves that are picked one by one, and these are the same
whatever else comes. -/
theorem reports_of_clocked (h : SaveHandler) (hnew : h.lastSaved = .float Binary64.zero)
    (hgap : (Number.int 0).le h.debounce = true) (directory : Path) (xs : List Delivery)
    (hclock : Clocked h.debounce xs) :
    (∀ ys, Picks h.debounce none (h.saves directory xs) ys ↔ ys = h.reports directory xs) ∧
    (h.reports directory xs).head? = (h.saves directory xs).head? ∧
    (h.reports directory xs).IsChain (Apart h.debounce) ∧
    (∀ before x after, xs = before ++ x :: after → x.event.Saves directory h.target →
      h.reports directory (before ++ [x]) = h.reports directory before ++ [x] ∨
      h.reports directory (before ++ [x]) = h.reports directory before ∧
        ∃ y, (h.reports directory before).getLast? = some y ∧ Within h.debounce y x) ∧
    ∀ ys, h.saves directory ys = h.saves directory xs →
      h.reports directory ys = h.reports directory xs := by
  have hpicks : Picks h.debounce none (h.saves directory xs) (h.reports directory xs) :=
    picks_reports hgap hnew hclock
  refine ⟨fun ys => ⟨fun hys => hys.unique hpicks, ?_⟩, hpicks.head?_eq, hpicks.isChain, ?_, ?_⟩
  · rintro rfl
    exact hpicks
  · rintro before x after rfl hx
    refine reports_concat hgap hnew (hclock.sublist ?_) hx
    exact List.Sublist.append_left (by simp) _
  · intro ys hys
    rw [← reports_saves, hys, reports_saves]

def reading (mantissa scale : Nat) (hlt : mantissa.succ.ble (Nat.pow 2 53) = true)
    (hscale : scale.ble 2045 = true) (hfull : (Nat.pow 2 52).ble mantissa = true) : Number :=
  .ofMagnitude ⟨mantissa, scale, Nat.le_of_ble_eq_true hlt, Nat.le_of_ble_eq_true hscale,
    .inr (Nat.le_of_ble_eq_true hfull)⟩

def firstWrite : Delivery := Session.rewriting (reading (Nat.pow 2 52) 1022 rfl rfl rfl) []

def nextWrite : Delivery := Session.rewriting (reading (5 * Nat.pow 2 50) 1022 rfl rfl rfl) []

def lateWrite : Delivery := Session.rewriting (reading (Nat.pow 2 52) 1023 rfl rfl rfl) []

theorem clocked_writes :
    Clocked Session.mainHandler.debounce [firstWrite, nextWrite, lateWrite] where
  isReading x hx := by
    simp only [List.mem_cons, List.not_mem_nil, or_false] at hx
    rcases hx with rfl | rfl | rfl <;> exact ⟨_, _, rfl⟩
  isLate := by decide +kernel
  sorted := by decide +kernel

theorem units?_debounce : Session.mainHandler.debounce.units? = some (Nat.pow 2 1073 : Nat) := by
  decide +kernel

theorem picks_writes :
    Picks Session.mainHandler.debounce none [firstWrite, nextWrite, lateWrite]
      [firstWrite, lateWrite] := by
  refine .pick _ _ _ _ nofun (.skip _ _ _ _ ?_ (.pick _ _ _ _ ?_ (.nil _)))
  · exact ⟨_, _, units?_debounce, ⟨_, _, rfl, rfl, rfl⟩, by decide +kernel⟩
  · rintro y ⟨⟩
    exact ⟨_, _, units?_debounce, ⟨_, _, rfl, rfl, rfl⟩, by decide +kernel⟩

theorem reports_of_clocked_writes :
    Session.mainHandler.lastSaved = .float Binary64.zero ∧
      (Number.int 0).le Session.mainHandler.debounce = true ∧
      Clocked Session.mainHandler.debounce [firstWrite, nextWrite, lateWrite] ∧
      Session.mainHandler.reports ⟨.root, []⟩ [firstWrite, nextWrite, lateWrite] =
        [firstWrite, lateWrite] := by
  have hgap : (Number.int 0).le Session.mainHandler.debounce = true := by decide +kernel
  refine ⟨rfl, hgap, clocked_writes, ?_⟩
  obtain ⟨hpicks, -⟩ :=
    reports_of_clocked Session.mainHandler rfl hgap ⟨.root, []⟩ _ clocked_writes
  refine ((hpicks _).1 ?_).symm
  have hsaves (now : Number) (content : Octets) (xs : List Delivery) :=
    saves_cons_of_saves (Session.saves_rewriting now content) xs
  rw [firstWrite, hsaves, nextWrite, hsaves, lateWrite, hsaves]
  exact picks_writes

end SaveHandler

end JsonnetPreview
