import SealedScript.Proofs.Decimal.Sign
import SealedScript.Proofs.Freshness

/-! Equality of values is symmetric and transitive, and a value equals itself unless there is something in it
that is not a number. Values that are equal look alike to whoever does not look inside. -/

namespace SealedScript

namespace Binary64

open Float.Model

/-- What a float counts for when numbers are compared: both zeros are one. -/
def number? : UnpackedFloat → Option UnpackedFloat
  | .notANumber => none
  | .zero _ => some (.zero .positive)
  | u => some u

lemma compare_eq_iff (u v : UnpackedFloat) :
    u.compare v = some .eq ↔ ∃ n, number? u = some n ∧ number? v = some n := by
  -- where kind or sign differ, the comparison comes out as less or greater
  cases u with
  | notANumber => exact iff_of_false (by rintro ⟨⟩) (by simp [number?])
  | zero s =>
    cases v with
    | infinity s' => cases s' <;> exact iff_of_false (by rintro ⟨⟩) (by simp [number?])
    | finite s' m' e' hm' => cases s' <;> exact iff_of_false (by rintro ⟨⟩) (by simp [number?])
    | notANumber => exact iff_of_false (by rintro ⟨⟩) (by simp [number?])
    | zero s' => exact iff_of_true rfl ⟨_, rfl, rfl⟩
  | infinity s =>
    cases v with
    | infinity s' => cases s <;> cases s' <;> simp [number?] <;> decide
    | _ => cases s <;> exact iff_of_false (by rintro ⟨⟩) (by simp [number?])
  | finite s m e hm =>
    cases v with
    | infinity s' => cases s' <;> exact iff_of_false (by rintro ⟨⟩) (by simp [number?])
    | finite s' m' e' hm' =>
      cases s <;> cases s' <;> simp [UnpackedFloat.compare, number?] <;> omega
    | _ => cases s <;> exact iff_of_false (by rintro ⟨⟩) (by simp [number?])

/-- Two floats are equal if they count for the same number. -/
lemma beq_iff (x y : Float) :
    (x == y) = true ↔ ∃ n, number? x.toModel.unpack = some n ∧ number? y.toModel.unpack = some n := by
  change (x.toModel.unpack.compare y.toModel.unpack == some .eq) = true ↔ _
  rw [beq_iff_eq, compare_eq_iff]

lemma isNaN_iff (x : Float) : x.isNaN = true ↔ number? x.toModel.unpack = none := by
  change x.toModel.unpack.isNaN = true ↔ _
  cases x.toModel.unpack <;> simp [UnpackedFloat.isNaN, number?]

lemma beq_symm {x y : Float} (h : (x == y) = true) : (y == x) = true := by
  obtain ⟨n, hx, hy⟩ := (beq_iff x y).mp h
  exact (beq_iff y x).mpr ⟨n, hy, hx⟩

lemma beq_trans {x y z : Float} (hxy : (x == y) = true) (hyz : (y == z) = true) : (x == z) = true := by
  obtain ⟨n, hx, hy⟩ := (beq_iff x y).mp hxy
  obtain ⟨n', hy', hz⟩ := (beq_iff y z).mp hyz
  obtain rfl : n = n' := Option.some.inj (hy.symm.trans hy')
  exact (beq_iff x z).mpr ⟨n, hx, hz⟩

lemma beq_self_iff (x : Float) : (x == x) = true ↔ ¬ x.isNaN = true := by
  rw [beq_iff, isNaN_iff, ← ne_eq, Option.ne_none_iff_exists']
  simp only [and_self]

end Binary64

namespace Value

/-- Something that is not a number stands in the value, itself or within its lists. -/
inductive HoldsNaN : Value → Prop
  | float {x : Float} (h : x.isNaN = true) : HoldsNaN (.float x)
  | list {items : List Value} {item : Value} (hitem : item ∈ items) (h : HoldsNaN item) :
    HoldsNaN (.list items)

lemma holdsNaN_list_iff {items : List Value} : (list items).HoldsNaN ↔ ∃ item ∈ items, item.HoldsNaN := by
  constructor
  · intro h
    cases h with
    | list hitem h => exact ⟨_, hitem, h⟩
  · rintro ⟨item, hitem, h⟩
    exact .list hitem h

lemma sameItems_symm {xs ys : List Value} (hitems : ∀ x ∈ xs, ∀ {y}, x.same y = true → y.same x = true)
    (h : sameItems xs ys = true) : sameItems ys xs = true := by
  induction xs generalizing ys with
  | nil =>
    cases ys with
    | nil => rfl
    | cons y ys => cases h
  | cons x xs ih =>
    rw [List.forall_mem_cons] at hitems
    cases ys with
    | nil => cases h
    | cons y ys =>
      rw [sameItems, Bool.and_eq_true] at h ⊢
      exact ⟨hitems.1 h.1, ih hitems.2 h.2⟩

lemma same_symm {u v : Value} (h : u.same v = true) : v.same u = true := by
  induction u generalizing v with
  | float x =>
    cases matches_of_same h with
    | float h => exact Binary64.beq_symm h
  | list items ih =>
    cases matches_of_same h with
    | list hitems => exact (Matches.list (sameItems_symm ih hitems)).same
  | type cls =>
    cases matches_of_same h with
    | type hid => exact (Matches.type hid.symm).same
  | module mod =>
    cases matches_of_same h with
    | module hid => exact (Matches.module hid.symm).same
  | _ =>
    cases matches_of_same h
    exact h

lemma sameItems_trans {xs ys zs : List Value}
    (hitems : ∀ x ∈ xs, ∀ {y z}, x.same y = true → y.same z = true → x.same z = true)
    (hxy : sameItems xs ys = true) (hyz : sameItems ys zs = true) : sameItems xs zs = true := by
  induction xs generalizing ys zs with
  | nil =>
    cases ys with
    | nil => exact hyz
    | cons y ys => cases hxy
  | cons x xs ih =>
    rw [List.forall_mem_cons] at hitems
    cases ys with
    | nil => cases hxy
    | cons y ys =>
      cases zs with
      | nil => cases hyz
      | cons z zs =>
        rw [sameItems, Bool.and_eq_true] at hxy hyz ⊢
        exact ⟨hitems.1 hxy.1 hyz.1, ih hitems.2 hxy.2 hyz.2⟩

lemma same_trans {u v w : Value} (huv : u.same v = true) (hvw : v.same w = true) : u.same w = true := by
  induction u generalizing v w with
  | float x =>
    cases matches_of_same huv with
    | float hxy =>
      cases matches_of_same hvw with
      | float hyz => exact Binary64.beq_trans hxy hyz
  | list items ih =>
    cases matches_of_same huv with
    | list hxy =>
      cases matches_of_same hvw with
      | list hyz => exact sameItems_trans ih hxy hyz
  | type cls =>
    cases matches_of_same huv with
    | type hxy =>
      cases matches_of_same hvw with
      | type hyz => exact (Matches.type (hxy.trans hyz)).same
  | module mod =>
    cases matches_of_same huv with
    | module hxy =>
      cases matches_of_same hvw with
      | module hyz => exact (Matches.module (hxy.trans hyz)).same
  | object id cls =>
    cases matches_of_same huv
    cases matches_of_same hvw
    exact (Matches.object id _ _).same
  | _ =>
    cases matches_of_same huv
    exact hvw

lemma sameItems_self_iff {items : List Value} (h : ∀ item ∈ items, item.same item = true ↔ ¬ item.HoldsNaN) :
    sameItems items items = true ↔ ∀ item ∈ items, ¬ item.HoldsNaN := by
  induction items with
  | nil => simp [sameItems]
  | cons item items ih =>
    rw [List.forall_mem_cons] at h ⊢
    rw [sameItems, Bool.and_eq_true, h.1, ih h.2]

lemma same_self_iff (v : Value) : v.same v = true ↔ ¬ v.HoldsNaN := by
  induction v with
  | float x =>
    refine (Binary64.beq_self_iff x).trans (not_congr ⟨.float, fun h => ?_⟩)
    cases h with
    | float h => exact h
  | list items ih =>
    refine (sameItems_self_iff ih).trans ?_
    rw [holdsNaN_list_iff]
    simp only [not_exists, not_and]
  | _ =>
    refine iff_of_true (Matches.same ?_) (by rintro ⟨⟩)
    constructor <;> rfl

lemma Matches.truthy_eq {u v : Value} (h : u.Matches v) : u.truthy = v.truthy := by
  cases h with
  | @float x y h =>
    -- both are equal to zero, or neither is
    have hzero : (x == 0.0) = (y == 0.0) := by
      rw [Bool.eq_iff_iff]
      exact ⟨Binary64.beq_trans (Binary64.beq_symm h), Binary64.beq_trans h⟩
    simp only [truthy, bne, hzero]
  | @list xs ys h =>
    cases xs with
    | nil =>
      cases ys with
      | nil => rfl
      | cons y ys => cases h
    | cons x xs =>
      cases ys with
      | nil => cases h
      | cons y ys => rfl
  | _ => rfl

lemma Matches.callable_eq {u v : Value} (h : u.Matches v) : u.callable = v.callable := by
  cases h <;> rfl

/-- One number stands for one object, which is of one class. -/
lemma Matches.typeName_eq {census : Census} {u v : Value} (h : u.Matches v) (hu : u.LivesIn census)
    (hv : v.LivesIn census) : u.typeName = v.typeName := by
  cases h with
  | object id c d =>
    have howners : some (Owner.object c) = some (.object d) := hu.owner_object.symm.trans hv.owner_object
    cases howners
    rfl
  | _ => rfl

/-- Equality is a partial equivalence. Only values with something in them that is not a number are left out:
they differ from themselves. Equal values are as true and as callable as each other. Their types have one name if
each number within them has one owner, and that is so for all the values of a run. -/
theorem same_partial_equivalence :
    (∀ u v : Value, u.same v = v.same u) ∧
    (∀ u v w : Value, u.same v = true → v.same w = true → u.same w = true) ∧
    (∀ v : Value, v.same v = true ↔ ¬ v.HoldsNaN) ∧
    (∀ u v : Value, u.same v = true → u.truthy = v.truthy ∧ u.callable = v.callable ∧
      ∀ census, u.LivesIn census → v.LivesIn census → u.typeName = v.typeName) ∧
    ∀ host x held, host.Honest → Moment.Arises host x held →
      ∃ census, ∀ u ∈ x.present held, u.LivesIn census := by
  refine ⟨fun u v => Bool.eq_iff_iff.mpr ⟨same_symm, same_symm⟩, fun _ _ _ => same_trans, same_self_iff, ?_, ?_⟩
  · intro u v h
    have hmatches := matches_of_same h
    exact ⟨hmatches.truthy_eq, hmatches.callable_eq, fun _ => hmatches.typeName_eq⟩
  · intro host x held hhost harises
    obtain ⟨census, hx, hheld⟩ := harises.settled hhost
    exact ⟨census, fun u hu => hx.present_livesIn hheld hu⟩

/-- A point without methods, beside a zero of either sign. -/
def zeroAndPoint (zero : Float) : Value :=
  .list [.float zero, .object 1 ⟨0, "Point", []⟩]

lemma zeroAndPoint_livesIn (zero : Float) :
    (zeroAndPoint zero).LivesIn [.type ⟨0, "Point", []⟩, .object ⟨0, "Point", []⟩] := by
  refine .list fun item hitem => ?_
  rcases List.mem_pair.mp hitem with rfl | rfl
  · exact .float zero
  · exact .object rfl (.type rfl (by simp))

/-- The sign of a zero does not count, neither within a list; what is not a number differs from itself there,
too. -/
theorem same_partial_equivalence_zeros :
    (zeroAndPoint 0.0).same (zeroAndPoint (-0.0)) = true ∧
      (zeroAndPoint (-0.0)).same (zeroAndPoint 0.0) = true ∧
      (zeroAndPoint 0.0).truthy = (zeroAndPoint (-0.0)).truthy ∧
      (zeroAndPoint 0.0).typeName = (zeroAndPoint (-0.0)).typeName ∧
      ¬ (list [list [float (0.0 / 0.0)]]).same (list [list [float (0.0 / 0.0)]]) = true := by
  obtain ⟨hcomm, -, hself, halike, -⟩ := same_partial_equivalence
  have hsame : (zeroAndPoint 0.0).same (zeroAndPoint (-0.0)) = true := by decide +kernel
  obtain ⟨htruthy, -, htype⟩ := halike _ _ hsame
  refine ⟨hsame, hcomm _ _ ▸ hsame, htruthy, ?_, ?_⟩
  · exact htype _ (zeroAndPoint_livesIn _) (zeroAndPoint_livesIn _)
  · rw [hself, not_not]
    exact .list List.mem_cons_self (.list List.mem_cons_self (.float (by decide +kernel)))

end Value

end SealedScript
