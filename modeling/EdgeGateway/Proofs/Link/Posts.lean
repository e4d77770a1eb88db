/-!
# Posts at the connections

Of what is listed for all connections, `onWire` takes what belongs to one. A link that is connected
has a reader and a writer at its connection. No two links are at one connection, so what is known of
every connection and of whoever is at it survives whatever happens at one post: `Manned.set` and
`Manned.enter`.
-/

namespace EdgeGateway

variable {α : Type}

/-- Those of a list that belong to a connection, in order. -/
def onWire (wire : α → Nat) (w : Nat) (xs : List α) : List α := xs.filter (wire · = w)

/-- What belongs to a connection in two lists comes in order. -/
theorem onWire_append (wire : α → Nat) (w : Nat) (xs ys : List α) :
    onWire wire w (xs ++ ys) = onWire wire w xs ++ onWire wire w ys := List.filter_append ..

/-- One thing belongs to its own connection and to no other. -/
theorem onWire_singleton (wire : α → Nat) (w : Nat) (x : α) :
    onWire wire w [x] = if wire x = w then [x] else [] := by
  by_cases h : wire x = w <;> simp [onWire, h]

namespace Posts

/-- Who is at a connection, if anybody is. -/
def At (ds : List (Option (Nat × α))) (w : Nat) : Option α → Prop
  | some x => ∃ i : Nat, ds[i]? = some (some (w, x))
  | none => ∀ (i : Nat) x, ds[i]? ≠ some (some (w, x))

/-- No two links are at one connection. -/
def Apart (ds : List (Option (Nat × α))) : Prop :=
  ∀ (i j w : Nat) x y, ds[i]? = some (some (w, x)) → ds[j]? = some (some (w, y)) → i = j

variable {ds : List (Option (Nat × α))} {i w v : Nat} {d : Option (Nat × α)} {x : α}
  {z : Option α}

/-- Whoever is at a connection stays there when something happens at the post of somebody else. -/
theorem At.set_of_ne (h : At ds v z) (hi : ∀ x, ds[i]? ≠ some (some (v, x)))
    (hd : ∀ x, d ≠ some (v, x)) : At (ds.set i d) v z := by
  cases z with
  | some x =>
    obtain ⟨j, hj⟩ := h
    refine ⟨j, ?_⟩
    rw [List.getElem?_set_ne, hj]
    rintro rfl
    exact hi x hj
  | none =>
    intro j x hj
    rw [List.getElem?_set] at hj
    split at hj
    · split at hj
      · exact hd x (by simpa using hj)
      · cases hj
    · exact h j x hj

/-- Nobody but the holder of a post is at its connection. -/
theorem At.eq_some (ha : Apart ds) (hi : ds[i]? = some (some (w, x)))
    (h : At ds w z) : z = some x := by
  cases z with
  | none => exact absurd hi (h i x)
  | some y =>
    obtain ⟨j, hj⟩ := h
    cases ha i j w x y hi hj
    cases hi.symm.trans hj
    rfl

/-- A connection at which nobody else is can be given to a link. -/
theorem Apart.set (ha : Apart ds)
    (hd : ∀ j v x y, d = some (v, x) → ds[j]? = some (some (v, y)) → j = i) :
    Apart (ds.set i d) := by
  intro j k v x y hj hk
  rw [List.getElem?_set] at hj hk
  split at hj
  · next hij =>
    split at hj
    · next hlt =>
      rw [if_pos hlt] at hk
      split at hk
      · next hik => rw [← hij, ← hik]
      · rw [← hij, hd k v x y (by simpa using hj) hk]
    · cases hj
  · split at hk
    · next hik =>
      split at hk
      · rw [← hik, hd j v y x (by simpa using hk) hj]
      · cases hk
    · exact ha j k v x y hj hk

/-- To put somebody where they are changes nothing. -/
theorem set_of_getElem? {xs : List α} {a : α} (h : xs[i]? = some a) : xs.set i a = xs := by
  obtain ⟨hi, rfl⟩ := List.getElem?_eq_some_iff.1 h
  exact List.set_getElem_self hi

/-- What is seen of a list after one of its members has changed. -/
theorem map_modify {β : Type} {f : α → β} {g : α → α} {r : β → β}
    (h : ∀ a, f (g a) = r (f a)) (xs : List α) (w : Nat) :
    (xs.modify w g).map f = (xs.map f).modify w r := by
  apply List.ext_getElem?
  intro j
  rw [List.getElem?_map, List.getElem?_modify, List.getElem?_modify, List.getElem?_map]
  cases xs[j]? with
  | none => rfl
  | some a =>
    simp only [Option.map_eq_map, Option.map_some]
    split
    · exact congrArg some (h a)
    · rfl

/-- A change that cannot be seen. -/
theorem map_modify_of_same {β : Type} {f : α → β} {g : α → α} (h : ∀ a, f (g a) = f a)
    (xs : List α) (w : Nat) : (xs.modify w g).map f = xs.map f := by
  rw [map_modify (r := id) h, List.modify_id]

/-- A change of one member leaves the others alone. -/
theorem getElem?_modify_of_ne {xs : List α} {g : α → α} {v w : Nat} (h : v ≠ w) :
    (xs.modify w g)[v]? = xs[v]? := List.getElem?_modify_ne _ _ (Ne.symm h)

/-- What has become of a member that has changed. -/
theorem eq_of_getElem?_modify {xs : List α} {g : α → α} {w : Nat} {a b : α}
    (ha : xs[w]? = some a) (hb : (xs.modify w g)[w]? = some b) : b = g a := by
  rw [List.getElem?_modify_eq, ha] at hb
  exact (Option.some.inj hb).symm

end Posts

/-- No two links are at one of `n` connections, and something is known of each connection and
whoever is at it. -/
structure Manned (ds : List (Option (Nat × α))) (n : Nat)
    (P : Nat → Option α → Prop) : Prop where
  apart : Posts.Apart ds
  known : ∀ (i w : Nat) x, ds[i]? = some (some (w, x)) → w < n
  holds : ∀ w < n, ∃ z, Posts.At ds w z ∧ P w z

namespace Manned

variable {ds : List (Option (Nat × α))} {n i w : Nat} {d : Option (Nat × α)} {x : α}
  {P Q : Nat → Option α → Prop}

/-- Where there are no connections there is nothing to know. -/
theorem of_absent (h : ∀ (i w : Nat) x, ds[i]? ≠ some (some (w, x))) : Manned ds 0 P :=
  ⟨fun i _ w x _ hi ↦ absurd hi (h i w x), fun i w x hi ↦ absurd hi (h i w x), nofun⟩

/-- What is known of a connection with the one who is at it. -/
theorem at_post (h : Manned ds n P) (hi : ds[i]? = some (some (w, x))) : P w (some x) := by
  obtain ⟨z, hz, hp⟩ := h.holds w (h.known i w x hi)
  cases hz.eq_some h.apart hi
  exact hp

/-- What is known of all connections may be replaced by what follows from it. -/
theorem mono (h : Manned ds n P) (hq : ∀ w < n, ∀ z, P w z → Q w z) : Manned ds n Q := by
  refine ⟨h.apart, h.known, fun w hw ↦ ?_⟩
  obtain ⟨z, hz, hp⟩ := h.holds w hw
  exact ⟨z, hz, hq w hw z hp⟩

/-- Something happens at one post. -/
theorem set (h : Manned ds n P) (hi : ds[i]? = some (some (w, x)))
    (hd : ∀ v y, d = some (v, y) → v = w)
    (hothers : ∀ v < n, v ≠ w → ∀ z, P v z → Q v z)
    (hw : P w (some x) → Q w (d.map Prod.snd)) : Manned (ds.set i d) n Q := by
  refine ⟨?_, ?_, ?_⟩
  · refine h.apart.set fun j v y z hv hj ↦ ?_
    cases hd v y hv
    exact h.apart j i w z x hj hi
  · intro j v y hj
    rw [List.getElem?_set] at hj
    split at hj
    · split at hj
      · rw [hd v y (by simpa using hj)]
        exact h.known i w x hi
      · cases hj
    · exact h.known j v y hj
  · intro v hv
    by_cases hvw : v = w
    · subst hvw
      refine ⟨d.map Prod.snd, ?_, hw (h.at_post hi)⟩
      have hin : i < ds.length := (List.getElem?_eq_some_iff.1 hi).1
      cases hdv : d with
      | some y =>
        obtain ⟨u, y⟩ := y
        cases hd u y hdv
        exact ⟨i, List.getElem?_set_self hin⟩
      | none =>
        intro j y hj
        rw [List.getElem?_set] at hj
        split at hj
        · cases hj
        · next hij => exact hij (h.apart i j v x y hi hj)
    · obtain ⟨z, hz, hp⟩ := h.holds v hv
      refine ⟨z, hz.set_of_ne ?_ ?_, hothers v hv hvw z hp⟩
      · intro y hy
        rw [hi] at hy
        cases hy
        exact hvw rfl
      · intro y hy
        exact hvw (hd v y hy)

/-- There is a new connection, and a link is at it. -/
theorem enter (h : Manned ds n P) (hi : ds[i]? = some none)
    (hothers : ∀ v < n, ∀ z, P v z → Q v z) (hn : Q n (some x)) :
    Manned (ds.set i (some (n, x))) (n + 1) Q := by
  have hnobody : ∀ (j : Nat) y, ds[j]? ≠ some (some (n, y)) := fun j y hj ↦
    Nat.lt_irrefl _ (h.known j n y hj)
  have hin : i < ds.length := (List.getElem?_eq_some_iff.1 hi).1
  refine ⟨?_, ?_, ?_⟩
  · refine h.apart.set fun j v y z hv hj ↦ ?_
    cases hv
    exact absurd hj (hnobody j z)
  · intro j v y hj
    rw [List.getElem?_set] at hj
    split at hj
    · cases hj
      exact Nat.lt_succ_self _
    · exact Nat.lt_succ_of_lt (h.known j v y hj)
  · intro v hv
    by_cases hvn : v = n
    · subst hvn
      exact ⟨some x, ⟨i, List.getElem?_set_self hin⟩, hn⟩
    · obtain ⟨z, hz, hp⟩ := h.holds v (by omega)
      refine ⟨z, hz.set_of_ne ?_ ?_, hothers v (by omega) z hp⟩
      · intro y hy
        rw [hi] at hy
        cases hy
      · rintro y ⟨⟩
        exact hvn rfl

end Manned

end EdgeGateway
