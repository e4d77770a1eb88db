import EdgeGateway.Connection.Registry

/-!
# The registry of connections

Laws of the registry, and what holds of every registry that is used as it should be: each connection
stands under its own number, numbers yet to be given are not in use, and whatever is open can be
reached.
-/

namespace EdgeGateway

namespace Connection

/-- A connection without a session: nobody asked for one, or the backend has not answered. -/
def Early (c : Connection) : Prop := c.status = .ready ∨ c.status = .check

/-- Whether a connection is early shows in its status. -/
instance (c : Connection) : Decidable c.Early := inferInstanceAs (Decidable (_ ∨ _))

/-- A connection that may own the session it was given. -/
def MayOwn (c : Connection) : Prop := c.status = .logon ∨ c.status = .logout ∨ c.status = .kick

/-- Whether a connection may own a session shows in its status. -/
instance (c : Connection) : Decidable c.MayOwn := inferInstanceAs (Decidable (_ ∨ _ ∨ _))

/-- A connection that owns a session has been given one. -/
theorem MayOwn.not_early {c : Connection} (h : c.MayOwn) : ¬ c.Early := by
  rintro (he | he) <;> rcases h with h | h | h <;> rw [he] at h <;> cases h

/-- What a connection can become as long as it is not given a session: its number and its session
stay, and neither a close nor a lost chance to log on is ever taken back. -/
structure Follows (c d : Connection) : Prop where
  cid : d.cid = c.cid
  sid : d.sid = c.sid
  closed : c.closed = true → d.closed = true
  early : d.Early → c.Early

/-- What a connection can become in any one step: only an open connection that has no session is
given one. -/
structure Grows (c d : Connection) : Prop where
  cid : d.cid = c.cid
  sid : c.closed = true ∨ ¬ c.Early → d.sid = c.sid
  closed : c.closed = true → d.closed = true
  early : d.Early → c.Early

/-- What a connection can become as long as it is neither given a session nor let go. -/
structure Keeps (c d : Connection) : Prop extends Follows c d where
  logon : d.status = .logon → c.status = .logon
  mayOwn : c.MayOwn → d.MayOwn

/-- A connection follows itself. -/
theorem Follows.refl (c : Connection) : c.Follows c := ⟨rfl, rfl, id, id⟩

/-- What follows a connection is what it can become. -/
theorem Follows.grows {c d : Connection} (h : c.Follows d) : c.Grows d :=
  ⟨h.cid, fun _ ↦ h.sid, h.closed, h.early⟩

/-- A connection can stay as it is. -/
theorem Grows.refl (c : Connection) : c.Grows c := (Follows.refl c).grows

/-- What a connection can become in two steps it can become. -/
theorem Grows.trans {c d e : Connection} (h : c.Grows d) (k : d.Grows e) : c.Grows e := by
  refine ⟨k.cid.trans h.cid, ?_, k.closed ∘ h.closed, h.early ∘ k.early⟩
  intro hc
  rw [k.sid (hc.imp h.closed (mt h.early)), h.sid hc]

/-- A connection that stays as it is keeps everything. -/
theorem Keeps.refl (c : Connection) : c.Keeps c := ⟨.refl c, id, id⟩

/-- A connection that keeps its number, its session and its status keeps all that matters here. -/
theorem Keeps.of_status_eq {c d : Connection} (hcid : d.cid = c.cid) (hsid : d.sid = c.sid)
    (hclosed : c.closed = true → d.closed = true) (hs : d.status = c.status) : c.Keeps d := by
  refine ⟨⟨hcid, hsid, hclosed, ?_⟩, ?_, ?_⟩
  · rintro (h | h)
    · exact .inl (hs ▸ h)
    · exact .inr (hs ▸ h)
  · intro h
    exact hs ▸ h
  · intro h
    rw [MayOwn, hs]
    exact h

/-- Closing a connection leaves its session and its status alone. -/
theorem keeps_close (c : Connection) : c.Keeps c.close := .of_status_eq rfl rfl (fun _ ↦ rfl) rfl

/-- Abandoning a queue leaves the session and the status alone. -/
theorem keeps_abandon (c : Connection) : c.Keeps c.abandon := .of_status_eq rfl rfl id rfl

private theorem keeps_of_send {c d : Connection} {m : Message}
    (h : c.send m = .ok d) : c.Keeps d := by
  obtain ⟨_, _, _, rfl⟩ := send_eq_ok_iff.1 h
  exact .of_status_eq rfl rfl id rfl

/-- Queuing a message leaves the session and the status alone. -/
theorem keeps_post (c : Connection) (m : Message) : c.Keeps (c.post m) := by
  rw [post]
  split
  · next h => exact keeps_of_send h
  · exact .refl c

/-- Taking a message off the queue leaves the session and the status alone. -/
theorem keeps_of_pop {c d : Connection} {m : Message} (h : c.pop = some (m, d)) : c.Keeps d := by
  rw [pop] at h
  split at h <;> cases h
  exact .of_status_eq rfl rfl id rfl

/-- Asking for a session is open only to a connection that has none. -/
theorem keeps_of_request {c d : Connection}
    (h : c.transition [.ready, .check] .check = some d) : c.Keeps d := by
  rw [transition] at h
  split at h
  · next hs =>
    cases h
    have he : c.Early := by
      rcases List.mem_cons.1 hs with hs | hs
      · exact .inl hs
      · exact .inr (by simpa using hs)
    exact ⟨⟨rfl, rfl, id, fun _ ↦ he⟩, nofun, fun ho ↦ absurd he ho.not_early⟩
  · cases h

/-- A connection that logs out keeps its session. -/
theorem keeps_logout (c : Connection) : c.Keeps (c.setStatus .logout) :=
  ⟨⟨rfl, rfl, id, by rintro (h | h) <;> cases h⟩, nofun, fun _ ↦ .inr (.inl rfl)⟩

/-- A connection that is kicked keeps its session. -/
theorem keeps_kick (c : Connection) : c.Keeps (c.setStatus .kick) :=
  ⟨⟨rfl, rfl, id, by rintro (h | h) <;> cases h⟩, nofun, fun _ ↦ .inr (.inr rfl)⟩

/-- A connection that retires keeps its session, but may not own it any longer. -/
theorem follows_retire (c : Connection) : c.Follows (c.setStatus .close) :=
  ⟨rfl, rfl, id, by rintro (h | h) <;> cases h⟩

/-- Only an open connection that waits for its session is given one. -/
theorem grows_of_logon {c d : Connection} {sid uid : UInt64} (h : c.logon sid uid = some d) :
    c.Grows d := by
  obtain ⟨hs, ho, rfl⟩ := logon_eq_some_iff.1 h
  have he : c.Early := .inr hs
  refine ⟨rfl, ?_, id, fun _ ↦ he⟩
  rintro (hc | hn)
  · rw [ho] at hc
    cases hc
  · exact absurd he hn

end Connection

namespace Connections

/-- A connection is found by those who look for it if it is registered. -/
theorem get?_eq_some_iff {t : Connections} {cid : UInt64} {c : Connection} :
    t.get? cid = some c ↔ t.isLive cid = true ∧ t.find? cid = some c := by
  rw [get?]
  split
  · next h => simp [h]
  · next h => simp [h]

/-- A change to a connection that does not exist changes nothing. -/
theorem modify_of_find?_eq_none {t : Connections} {cid : UInt64} (h : t.find? cid = none)
    (f : Connection → Connection) : t.modify cid f = t := by
  rw [find?] at h
  simp [modify, Table.modify, h]

/-- A change to a connection is the change to what is there. -/
theorem modify_of_find?_eq_some {t : Connections} {cid : UInt64} {c : Connection}
    (h : t.find? cid = some c) (f : Connection → Connection) :
    t.modify cid f = t.modify cid fun _ ↦ f c := by
  rw [find?] at h
  simp [modify, Table.modify, h]

/-- A new connection stands under the next number. -/
theorem find?_create (t : Connections) (capacity : Nat) (cid : UInt64) :
    (t.create capacity).2.find? cid =
      if cid = t.next then some (.fresh t.next capacity) else t.find? cid := Table.get?_insert ..

/-- A registration changes no connection. -/
@[simp] theorem find?_register (t : Connections) (cid c : UInt64) :
    (t.register cid).find? c = t.find? c := rfl

/-- What closing one connection keeps is kept when all are closed. -/
theorem closeAll_induction {P : Connections → Prop} {t : Connections} (initially : P t)
    (kept : ∀ u cid, P u → P (u.modify cid .close)) : P t.closeAll.2 := by
  rw [closeAll]
  generalize t.live.values = cids
  induction cids generalizing t with
  | nil => exact initially
  | cons cid cids ih =>
    rw [List.foldl_cons]
    exact ih (kept t cid initially)

/-- Each connection stands under its own number, what can be reached exists, what is open can be
reached, and the next number is not in use before the numbers are used up. -/
structure Numbered (t : Connections) : Prop where
  cid_eq : ∀ cid c, t.find? cid = some c → c.cid = cid
  isSome_of_isLive : ∀ cid, t.isLive cid = true → (t.find? cid).isSome
  isLive_of_open : ∀ cid c, t.find? cid = some c → c.closed = false → t.isLive cid = true
  lt_next : ∀ cid, (t.find? cid).isSome → t.next ≠ 0 → cid < t.next

/-- Without connections the numbers are in order. -/
theorem numbered_empty (shards : Nat) : (empty shards).Numbered := by
  refine ⟨?_, ?_, ?_, ?_⟩
  · intro cid c h
    cases h
  · intro cid h
    simp [isLive, empty, ShardedTable.contains] at h
  · intro cid c h
    cases h
  · intro cid h
    cases h

/-- A number that is given next belongs to no connection yet. -/
theorem Numbered.find?_next {t : Connections} (ht : t.Numbered) (hn : t.next ≠ 0) :
    t.find? t.next = none := by
  cases h : t.find? t.next with
  | none => rfl
  | some c =>
    have hlt := ht.lt_next t.next (by simp [h]) hn
    exact absurd hlt (UInt64.lt_irrefl t.next)

/-- What a connection can become leaves the numbers in order. -/
theorem Numbered.modify {t : Connections} (ht : t.Numbered) {cid : UInt64} {c d : Connection}
    (hc : t.find? cid = some c) (hd : c.Grows d) : (t.modify cid fun _ ↦ d).Numbered := by
  have hf : ∀ k, (t.modify cid fun _ ↦ d).find? k = if k = cid then some d else t.find? k := by
    intro k
    rw [find?_modify, hc]
    rfl
  refine ⟨?_, ?_, ?_, ?_⟩
  · intro k e he
    rw [hf] at he
    split at he
    · next hk =>
      cases he
      rw [hd.cid, ht.cid_eq cid c hc, hk]
    · exact ht.cid_eq k e he
  · intro k hk
    rw [hf]
    split
    · rfl
    · exact ht.isSome_of_isLive k hk
  · intro k e he ho
    rw [hf] at he
    split at he
    · next hk =>
      cases he
      subst hk
      refine ht.isLive_of_open k c hc ?_
      rw [Bool.eq_false_iff]
      intro hcl
      rw [hd.closed hcl] at ho
      cases ho
    · exact ht.isLive_of_open k e he ho
  · intro k hk
    rw [hf] at hk
    split at hk
    · next he =>
      subst he
      exact ht.lt_next k (by simp [hc])
    · exact ht.lt_next k hk

/-- Making a closed connection unreachable leaves the numbers in order. -/
theorem Numbered.deregister {t : Connections} (ht : t.Numbered) {cid : UInt64} {c : Connection}
    (hc : t.find? cid = some c) (hcl : c.closed = true) : (t.deregister cid).Numbered := by
  refine ⟨ht.cid_eq, ?_, ?_, ht.lt_next⟩
  · intro k hk
    rw [isLive_deregister, Bool.and_eq_true] at hk
    exact ht.isSome_of_isLive k hk.2
  · intro k d hd ho
    rw [isLive_deregister, Bool.and_eq_true]
    refine ⟨?_, ht.isLive_of_open k d hd ho⟩
    rw [decide_eq_true_eq]
    intro hk
    subst hk
    rw [show t.find? k = some d from hd] at hc
    cases hc
    rw [hcl] at ho
    cases ho

/-- A new connection leaves the numbers in order. -/
theorem Numbered.connect {t : Connections} (ht : t.Numbered) (hn : t.next ≠ 0) (capacity : Nat) :
    ((t.create capacity).2.register t.next).Numbered := by
  have hlive : ∀ k, ((t.create capacity).2.register t.next).isLive k =
      (decide (k = t.next) || t.isLive k) := fun k ↦ isLive_register _ _ _
  refine ⟨?_, ?_, ?_, ?_⟩
  · intro k c hc
    rw [find?_register, find?_create] at hc
    split at hc
    · next hk =>
      cases hc
      exact hk.symm
    · exact ht.cid_eq k c hc
  · intro k hk
    rw [hlive, Bool.or_eq_true, decide_eq_true_eq] at hk
    rw [find?_register, find?_create]
    split
    · rfl
    · next hne => exact ht.isSome_of_isLive k (hk.resolve_left hne)
  · intro k c hc ho
    rw [hlive, Bool.or_eq_true, decide_eq_true_eq]
    rw [find?_register, find?_create] at hc
    split at hc
    · next hk => exact .inl hk
    · exact .inr (ht.isLive_of_open k c hc ho)
  · intro k hk hnext
    rw [find?_register, find?_create] at hk
    have hnext : t.next + 1 ≠ 0 := hnext
    show k < t.next + 1
    have hlt : t.next < t.next + 1 := by
      rw [UInt64.lt_iff_toNat_lt, UInt64.toNat_add]
      have hb := t.next.toNat_lt
      have hne : (t.next + 1).toNat ≠ 0 := fun h ↦ hnext (UInt64.toNat_inj.1 h)
      rw [UInt64.toNat_add] at hne
      have h1 : (1 : UInt64).toNat = 1 := rfl
      omega
    split at hk
    · next he =>
      subst he
      exact hlt
    · exact UInt64.lt_trans (ht.lt_next k hk hn) hlt

/-! ### What becomes of the connections -/

/-- Every connection of `t` has become one of `u` as `R` allows, and what is new in `u` is fresh. -/
structure Evolves (R : Connection → Connection → Prop) (t u : Connections) : Prop where
  old : ∀ cid c, t.find? cid = some c → ∃ d, u.find? cid = some d ∧ R c d
  new : ∀ cid d, u.find? cid = some d →
    (∃ c, t.find? cid = some c ∧ R c d) ∨ t.find? cid = none ∧ ∃ n, d = .fresh cid n

variable {R : Connection → Connection → Prop} {t u : Connections}

/-- Connections can stay as they are. -/
theorem Evolves.refl (hR : ∀ c, R c c) (t : Connections) : t.Evolves R t :=
  ⟨fun _ c h ↦ ⟨c, h, hR c⟩, fun _ d h ↦ .inl ⟨d, h, hR d⟩⟩

/-- No connection is lost, and each has become what it can become in steps. -/
def Grown (t u : Connections) : Prop :=
  ∀ cid c, t.find? cid = some c → ∃ d, u.find? cid = some d ∧ c.Grows d

/-- Connections can stay as they are. -/
theorem Grown.refl (t : Connections) : t.Grown t := fun _ c h ↦ ⟨c, h, .refl c⟩

/-- What connections become in two steps they can become. -/
theorem Grown.trans {v : Connections} (h : t.Grown u) (k : u.Grown v) : t.Grown v := by
  intro cid c hc
  obtain ⟨d, hd, hg⟩ := h cid c hc
  obtain ⟨e, he, hk⟩ := k cid d hd
  exact ⟨e, he, hg.trans hk⟩

/-- Connections that evolve by what they can become have grown. -/
theorem Evolves.grown (h : t.Evolves R u) (hR : ∀ c d, R c d → c.Grows d) : t.Grown u := by
  intro cid c hc
  obtain ⟨d, hd, hr⟩ := h.old cid c hc
  exact ⟨d, hd, hR c d hr⟩

/-- Changing one connection as allowed is an evolution of all. -/
theorem evolves_modify (hR : ∀ c, R c c) {cid : UInt64} {c d : Connection}
    (hc : t.find? cid = some c) (hd : R c d) : t.Evolves R (t.modify cid fun _ ↦ d) := by
  have hf : ∀ k, (t.modify cid fun _ ↦ d).find? k = if k = cid then some d else t.find? k := by
    intro k
    rw [find?_modify, hc]
    rfl
  refine ⟨?_, ?_⟩
  · intro k e he
    rw [hf]
    split
    · next hk =>
      subst hk
      rw [hc] at he
      cases he
      exact ⟨d, rfl, hd⟩
    · exact ⟨e, he, hR e⟩
  · intro k e he
    rw [hf] at he
    split at he
    · next hk =>
      subst hk
      cases he
      exact .inl ⟨c, hc, hd⟩
    · exact .inl ⟨e, he, hR e⟩

/-- A new connection is an evolution of all. -/
theorem evolves_connect (hR : ∀ c, R c c) (ht : t.Numbered) (hn : t.next ≠ 0) (capacity : Nat) :
    t.Evolves R ((t.create capacity).2.register t.next) := by
  have hnone := ht.find?_next hn
  refine ⟨?_, ?_⟩
  · intro k c hc
    rw [find?_register, find?_create]
    split
    · next hk =>
      rw [hk, hnone] at hc
      cases hc
    · exact ⟨c, hc, hR c⟩
  · intro k d hd
    rw [find?_register, find?_create] at hd
    split at hd
    · next hk =>
      subst hk
      cases hd
      exact .inr ⟨hnone, capacity, rfl⟩
    · exact .inl ⟨d, hd, hR d⟩

/-- Changing one connection to what it can become is growth of all. -/
theorem grown_modify {cid : UInt64} {c d : Connection} (hc : t.find? cid = some c)
    (hd : c.Grows d) : t.Grown (t.modify cid fun _ ↦ d) :=
  (evolves_modify .refl hc hd).grown fun _ _ hk ↦ hk

end Connections

end EdgeGateway
