import RoomHub.Proofs.Hub.Commuting

/-!
# Interleavings of scripts

Every connection has a script of operations, and a run plays the scripts in some
interleaving. Since neighbouring operations of different connections may be swapped, an
operation may be drawn to the front of those of others (`play_front`); so two interleavings
of the same scripts end alike (`play_interleaved`), and the script of one connection may
as well be played last (`play_last`). What the script of a connection is answered does not
depend on the others at all (`play_entry`).

> `interleavings_agree`: every call of every script is answered alike in all
> interleavings, and they end in the same hub; a connection that comes and goes leaves the
> registry and the counts as if it had not been there, and the names too where the tracker
> showed them rightly to begin with;
> `kept_name_is_lost`: without that proviso a name may differ.
-/

namespace RoomHub

open Std (ExtTreeMap)
open Registry (Update)

namespace Hub

variable {h h' : Hub} {c : ConnectionId} {u v : Update} {us us' : List Update}

/-! ## Interleavings -/

/-- An operation may be drawn to the front of operations of other connections. -/
theorem play_front (hi : InStep h) {pre post : List Update} (hn : OneName h (pre ++ u :: post))
    (hpre : ∀ v ∈ pre, v.target ≠ u.target) :
    (h.play (pre ++ u :: post)).2 = (h.play (u :: (pre ++ post))).2 := by
  -- on the operations in front, the hub being the one that they lead to
  induction pre generalizing h with
  | nil => rfl
  | cons v pre ih =>
    have hv : v.target ≠ u.target := hpre v List.mem_cons_self
    have hrest : ((h.update v).2.play (pre ++ u :: post)).2
        = ((h.update v).2.play (u :: (pre ++ post))).2 :=
      ih (inStep_update hi v) (hn.update hi.mirrored)
        fun w hw => hpre w (List.mem_cons_of_mem v hw)
    have hswap := update_comm hi hn.sameNames hv
    calc (h.play (v :: pre ++ u :: post)).2
        = ((h.update v).2.play (u :: (pre ++ post))).2 := hrest
      _ = (((h.update v).2.update u).2.play (pre ++ post)).2 := rfl
      _ = (((h.update u).2.update v).2.play (pre ++ post)).2 := by rw [hswap]
      _ = (h.play (u :: (v :: pre ++ post))).2 := rfl

/-- A list of operations is an interleaving of scripts, one for each connection. -/
def Interleaves (scripts : ConnectionId → List Update) (us : List Update) : Prop :=
  ∀ c, us.filter (·.target = c) = scripts c

/-- Operations in another order, those of each connection in the same one, lead to the
same hub. -/
theorem play_interleaved (hi : InStep h) (hn : OneName h us')
    (hsame : Interleaves (fun c => us'.filter (·.target = c)) us) :
    (h.play us).2 = (h.play us').2 := by
  induction us generalizing h us' with
  | nil =>
    cases us' with
    | nil => rfl
    | cons v us' =>
      have hempty : [] = (v :: us').filter (·.target = v.target) := hsame v.target
      rw [List.filter_cons_of_pos (by simp)] at hempty
      cases hempty
  | cons u us ih =>
    -- the first operation stands somewhere on the other side, after those of others
    have hu : (u :: us).filter (·.target = u.target) = us'.filter (·.target = u.target) :=
      hsame u.target
    rw [List.filter_cons_of_pos (by simp)] at hu
    obtain ⟨pre, post, rfl, hpre, -, hpost⟩ := List.filter_eq_cons_iff.mp hu.symm
    have hother : ∀ v ∈ pre, v.target ≠ u.target := by
      intro v hv
      simpa using hpre v hv
    have hfront := play_front hi hn hother
    have hn' : OneName (h.update u).2 (pre ++ post) := by
      refine OneName.update hi.mirrored (hn.of_subset ?_)
      exact (List.perm_middle.symm).subset
    rw [hfront]
    refine ih (inStep_update hi u) hn' fun c => ?_
    show us.filter (·.target = c) = (pre ++ post).filter (·.target = c)
    have hc : (u :: us).filter (·.target = c) = (pre ++ u :: post).filter (·.target = c) :=
      hsame c
    rw [List.filter_append] at hc ⊢
    by_cases huc : u.target = c
    · -- the script of this connection is shorter by its head on both sides
      subst huc
      have hnone : pre.filter (·.target = u.target) = [] := by
        rw [List.filter_eq_nil_iff]
        exact hpre
      rw [hnone, List.nil_append]
      exact hpost.symm
    · rw [List.filter_cons_of_neg (by simpa using huc),
        List.filter_cons_of_neg (by simpa using huc)] at hc
      exact hc

/-- The operations of one connection may as well be played last. -/
theorem play_last (hi : InStep h) (hn : OneName h us) (c : ConnectionId) :
    (h.play us).2
      = (h.play (us.filter (·.target ≠ c) ++ us.filter (·.target = c))).2 := by
  have hsub : us.filter (·.target ≠ c) ++ us.filter (·.target = c) ⊆ us := by
    intro v hv
    rcases List.mem_append.mp hv with hv | hv <;> exact (List.mem_filter.mp hv).1
  refine play_interleaved hi (hn.of_subset hsub) fun d => ?_
  show us.filter (·.target = d)
    = (us.filter (·.target ≠ c) ++ us.filter (·.target = c)).filter (·.target = d)
  rw [List.filter_append, List.filter_filter, List.filter_filter]
  by_cases hcd : c = d
  · subst hcd
    simp
  · have hother : us.filter (fun v => decide (v.target = d) && decide (v.target = c)) = [] := by
      rw [List.filter_eq_nil_iff]
      intro v _
      simpa using fun hvd hvc => hcd (hvc.symm.trans hvd)
    rw [hother, List.append_nil]
    apply List.filter_congr
    intro v _
    by_cases hvd : v.target = d
    · simp [hvd, Ne.symm hcd]
    · simp [hvd]

/-- The entry of a connection, and what it is answered, depend on its own script only. -/
theorem play_entry (hg : h.registry.Mirrored) (hg' : h'.registry.Mirrored)
    (hc : h.registry.member? c = h'.registry.member? c) (us : List Update) :
    repliesTo c (h.play us).1 = repliesTo c (h'.play (us.filter (·.target = c))).1 ∧
      (h.play us).2.registry.member? c
        = (h'.play (us.filter (·.target = c))).2.registry.member? c := by
  induction us generalizing h h' with
  | nil => exact ⟨rfl, hc⟩
  | cons u us ih =>
    have hg₁ : ∀ {k : Hub}, k.registry.Mirrored → (k.update u).2.registry.Mirrored := by
      intro k hk
      rw [update_eq hk]
      exact Registry.mirrored_update hk u
    by_cases hu : u.target = c
    · subst hu
      rw [List.filter_cons_of_pos (by simp)]
      have hentry : (h.update u).2.registry.member? u.target
          = (h'.update u).2.registry.member? u.target := by
        rw [member?_update_target hg, member?_update_target hg', hc]
      have hanswer : (h.update u).1 = (h'.update u).1 := by
        rw [update_eq hg, update_eq hg', (Registry.update_entry hg u).1,
          (Registry.update_entry hg' u).1, hc]
      obtain ⟨hreplies, hend⟩ := ih (hg₁ hg) (hg₁ hg') hentry
      refine ⟨?_, hend⟩
      have hself : ∀ (x : Reply) (l : List (ConnectionId × Reply)),
          repliesTo u.target ((u.target, x) :: l) = x :: repliesTo u.target l := by
        intro x l
        simp [repliesTo]
      show repliesTo u.target ((u.target, (h.update u).1) :: ((h.update u).2.play us).1)
        = repliesTo u.target ((u.target, (h'.update u).1) ::
            ((h'.update u).2.play (us.filter (·.target = u.target))).1)
      rw [hself, hself, hanswer, hreplies]
    · rw [List.filter_cons_of_neg (by simpa using hu)]
      have hentry : (h.update u).2.registry.member? c = h'.registry.member? c := by
        rw [member?_update_of_ne hg hu, hc]
      obtain ⟨hreplies, hend⟩ := ih (hg₁ hg) hg' hentry
      refine ⟨?_, hend⟩
      have hskip : ∀ (x : Reply) (l : List (ConnectionId × Reply)),
          repliesTo c ((u.target, x) :: l) = repliesTo c l := by
        intro x l
        simp [repliesTo, hu]
      show repliesTo c ((u.target, (h.update u).1) :: ((h.update u).2.play us).1) = _
      rw [hskip, hreplies]

/-! ## Coming and going -/

/-- A script that ends with a detach leaves the registry as if it had not been played. -/
theorem registry_play_gone (hi : InStep h) (hfree : h.registry.member? c = none)
    (hown : ∀ v ∈ us, v.target = c) (hlast : us.getLast? = some (.detach c)) :
    (h.play us).2.registry = h.registry := by
  refine (inStep_play hi us).mirrored.ext hi.mirrored fun d => ?_
  by_cases hcd : c = d
  · -- whatever the script did before, the detach clears the entry
    subst hcd
    obtain ⟨before, rfl⟩ := List.getLast?_eq_some_iff.mp hlast
    have hg := (inStep_play hi before).mirrored
    have hgone : ((h.play before).2.update (.detach c)).2.registry.member? c = none :=
      member?_update_target hg (.detach c)
    rw [play_append, hfree]
    exact hgone
  · have hnone : us.filter (·.target = d) = [] := by
      rw [List.filter_eq_nil_iff]
      intro v hv
      have hvc := hown v hv
      simpa [hvc] using hcd
    have hentry := (play_entry hi.mirrored hi.mirrored (c := d) rfl us).2
    rw [hnone] at hentry
    exact hentry

/-- Over a series in which everybody has one name, the call keeps the name of the room. -/
theorem namedAt_play {r : RoomId} {w : UserId} (hi : InStep h) (hn : OneName h us)
    (hw : NamedAt h r w) : NamedAt (h.play us).2 r w := by
  induction us generalizing h with
  | nil => exact hw
  | cons u us ih =>
    have hn' := hn.update hi.mirrored
    have hw' : NamedAt (h.update u).2 r w := by
      have hs := hn'.sameNames
      rw [update_snd] at hs ⊢
      exact namedAt_act hi hw hs
    exact ih (inStep_update hi u) hn' hw'

/-- The registry says what the tracker holds for a user whom it shows rightly. -/
theorem slot?_eq_of_namedAt {r : RoomId} {w : UserId} (hi : InStep h) (hi' : InStep h')
    (hregistry : h.registry = h'.registry) (hw : NamedAt h r w) (hw' : NamedAt h' r w) :
    h.calls.slot? r w = h'.calls.slot? r w := by
  have hcount : h.calls.count r w = h'.calls.count r w := by
    rw [hi.counted, hi'.counted, hregistry]
  have hboth : (h.calls.slot? r w).isSome = (h'.calls.slot? r w).isSome := by
    rw [Bool.eq_iff_iff, hi.kept.isSome_slot, hi'.kept.isSome_slot, hcount]
  cases he : h.calls.slot? r w with
  | none =>
    rw [he] at hboth
    exact (Option.isSome_eq_false_iff.mp hboth.symm |> Option.isNone_iff_eq_none.mp).symm
  | some e =>
    rw [he] at hboth
    obtain ⟨e', he'⟩ := Option.isSome_iff_exists.mp hboth.symm
    -- both show the user as a connection in the call does
    obtain ⟨c, m, hm, hroom, -, huser⟩ := hi.exists_caller he
    have hshown : m.handle.participant = e.participant := hw he hm hroom huser
    have hshown' : m.handle.participant = e'.participant := hw' he' (hregistry ▸ hm) hroom huser
    rw [CallTracker.count_eq, CallTracker.count_eq, he, he'] at hcount
    rw [he']
    cases e
    cases e'
    cases hcount
    cases hshown.symm.trans hshown'
    rfl

/-- Whose handles are of other users or rooms does not touch the entry of this user. -/
theorem slot?_play_of_foreign {r : RoomId} {w : UserId} (hi : InStep h)
    (hown : ∀ v ∈ us, v.target = c)
    (hforeign : ∀ a, Involved h us a → a.id = c → ¬(a.room = r ∧ a.participant.user = w)) :
    (h.play us).2.calls.slot? r w = h.calls.slot? r w := by
  induction us generalizing h with
  | nil => rfl
  | cons u us ih =>
    have hu : u.target = c := hown u List.mem_cons_self
    have hrest : ((h.update u).2.play us).2.calls.slot? r w = (h.update u).2.calls.slot? r w := by
      refine ih (inStep_update hi u) (fun v hv => hown v (List.mem_cons_of_mem u hv)) ?_
      intro a ha
      exact hforeign a (ha.of_update hi.mirrored)
    have hstep : (h.update u).2.calls.slot? r w = h.calls.slot? r w := by
      rw [update_eq hi.mirrored]
      show (h.calls.told (u.mark? (h.registry.member? u.target))).slot? r w = _
      cases hk : u.mark? (h.registry.member? u.target) with
      | none => rfl
      | some k =>
        obtain ⟨m, hm, hkind⟩ := Update.mark?_cases hk
        have hid : m.handle.id = c := (hi.mirrored.id_eq hm).trans hu
        have hother := hforeign m.handle (Or.inl ⟨_, m, hm, rfl⟩) hid
        show (h.calls.mark k).slot? r w = _
        rw [CallTracker.slot?_mark, if_neg]
        rcases hkind with ⟨rfl, -⟩ | rfl <;> exact hother
    exact hrest.trans hstep

/-! ## A run without one connection -/

/-- Who does not come is not registered but as at first. -/
theorem member?_play_without (hg : h.registry.Mirrored) (c : ConnectionId) (us : List Update) :
    (h.play (us.filter (·.target ≠ c))).2.registry.member? c = h.registry.member? c := by
  have hnone : (us.filter (·.target ≠ c)).filter (·.target = c) = [] := by
    rw [List.filter_eq_nil_iff]
    intro v hv
    simpa using (List.mem_filter.mp hv).2
  have hentry := (play_entry hg hg (c := c) rfl (us.filter (·.target ≠ c))).2
  rw [hnone] at hentry
  exact hentry

/-- The script of a connection may as well be played after all others. -/
theorem play_eq_play_without (hi : InStep h) (hn : OneName h us) (c : ConnectionId) :
    (h.play us).2
      = ((h.play (us.filter (·.target ≠ c))).2.play (us.filter (·.target = c))).2 := by
  rw [play_last hi hn c, play_append]

/-- Who comes and goes leaves the registry as it is without that connection. -/
theorem registry_play_without (hi : InStep h) (hn : OneName h us)
    (hfree : h.registry.member? c = none)
    (hlast : (us.filter (·.target = c)).getLast? = some (.detach c)) :
    (h.play us).2.registry = (h.play (us.filter (·.target ≠ c))).2.registry := by
  rw [play_eq_play_without hi hn c]
  refine registry_play_gone (inStep_play hi _) ?_ (fun v hv => ?_) hlast
  · rw [member?_play_without hi.mirrored, hfree]
  · simpa using (List.mem_filter.mp hv).2

/-- So it leaves the entry of a user whom the tracker shows rightly at first, or of whom
the connection is not. -/
theorem slot?_play_without {r : RoomId} {w : UserId} (hi : InStep h) (hn : OneName h us)
    (hfree : h.registry.member? c = none)
    (hlast : (us.filter (·.target = c)).getLast? = some (.detach c))
    (hcase : h.NamedAt r w ∨
      ∀ a, .attach a ∈ us.filter (·.target = c) → ¬(a.room = r ∧ a.participant.user = w)) :
    (h.play us).2.calls.slot? r w = (h.play (us.filter (·.target ≠ c))).2.calls.slot? r w := by
  have hi' : InStep (h.play (us.filter (·.target ≠ c))).2 := inStep_play hi _
  rcases hcase with hw | hforeign
  · have hleft := namedAt_play hi hn hw
    have hright : NamedAt (h.play (us.filter (·.target ≠ c))).2 r w :=
      namedAt_play hi (hn.of_subset (List.filter_subset_self us)) hw
    exact slot?_eq_of_namedAt (inStep_play hi us) hi' (registry_play_without hi hn hfree hlast)
      hleft hright
  · rw [play_eq_play_without hi hn c]
    refine slot?_play_of_foreign (c := c) hi' (fun v hv => ?_) fun a ha hid => ?_
    · simpa using (List.mem_filter.mp hv).2
    · rcases ha with ⟨d, m, hm, rfl⟩ | hattach
      · -- the connection is not registered there
        rw [← hi'.mirrored.id_eq hm, hid, member?_play_without hi.mirrored, hfree] at hm
        cases hm
      · exact hforeign a hattach

/-! ## Every family of scripts -/

/-- From any hub that a run leads to, and while handles of one user for one room carry one
name: every interleaving of the scripts answers every call alike and ends in the same hub.
A connection that is not there at first and whose script ends with a detach leaves the
registry and all counts as they are without it, and the entries of users too, unless the
tracker shows a user at first otherwise than the user's connections do, and the connection
is of that user. -/
theorem interleavings_agree {outboxes : ExtTreeMap ConnectionId Outbox} {steps : List Step}
    {scripts : ConnectionId → List Update} {us us' : List Update}
    (hus : Interleaves scripts us) (hus' : Interleaves scripts us')
    (hname : OneName (after outboxes steps) us) :
    let h := after outboxes steps
    (∀ c, repliesTo c (h.play us).1 = repliesTo c (h.play us').1) ∧
    (h.play us).2 = (h.play us').2 ∧
    (∀ c, h.registry.member? c = none → (scripts c).getLast? = some (.detach c) →
      let without := us.filter (·.target ≠ c)
      (h.play us).2.registry = (h.play without).2.registry ∧
      (∀ r w, (h.play us).2.calls.count r w = (h.play without).2.calls.count r w) ∧
      (∀ r w, (h.NamedAt r w ∨
          ∀ a, .attach a ∈ scripts c → ¬(a.room = r ∧ a.participant.user = w)) →
        (h.play us).2.calls.slot? r w = (h.play without).2.calls.slot? r w) ∧
      (h.NamedAlike → (h.play us).2.calls = (h.play without).2.calls)) := by
  intro h
  have hi : InStep h := inStep_run steps (inStep_idle outboxes)
  have hg := hi.mirrored
  refine ⟨fun c => ?_, ?_, fun c hfree hlast => ?_⟩
  · have hleft := (play_entry hg hg (c := c) rfl us).1
    have hright := (play_entry hg hg (c := c) rfl us').1
    rw [hleft, hright, hus c, hus' c]
  · refine (play_interleaved hi hname fun c => ?_).symm
    exact (hus' c).trans (hus c).symm
  · intro without
    rw [← hus c] at hlast
    have hregistry : (h.play us).2.registry = (h.play without).2.registry :=
      registry_play_without hi hname hfree hlast
    have hi' : InStep (h.play without).2 := inStep_play hi without
    refine ⟨hregistry, fun r w => ?_, fun r w hcase => ?_, fun hall => ?_⟩
    · rw [(inStep_play hi us).counted, hi'.counted, hregistry]
    · rw [← hus c] at hcase
      exact slot?_play_without hi hname hfree hlast hcase
    · refine (inStep_play hi us).kept.ext hi'.kept fun r w => ?_
      exact slot?_play_without hi hname hfree hlast (Or.inl (@hall r w))

/-- A connection of a user in some room. -/
def device (n user : Nat) (name : String) : Handle :=
  ⟨⟨⟨n⟩⟩, ⟨⟨1⟩⟩, ⟨⟨⟨user⟩⟩, name⟩⟩

/-- Alice is in a call, comes a second time and goes again, and Bob joins the call: in one
order and in another. -/
theorem interleavings_agree_second_device :
    let h := after ∅ [.attach (device 1 1 "alice"), .setInCall ⟨⟨1⟩⟩ true]
    let second : List Update :=
      [.attach (device 2 1 "alice"), .setInCall ⟨⟨2⟩⟩ true, .detach ⟨⟨2⟩⟩]
    let bob : List Update := [.attach (device 3 2 "bob"), .setInCall ⟨⟨3⟩⟩ true]
    (∀ c, repliesTo c (h.play (second ++ bob)).1 = repliesTo c (h.play (bob ++ second)).1) ∧
      (h.play (second ++ bob)).2 = (h.play (bob ++ second)).2 ∧
      (h.play (second ++ bob)).2.calls.slot? ⟨⟨1⟩⟩ ⟨⟨1⟩⟩ = some ⟨1, ⟨⟨⟨1⟩⟩, "alice"⟩⟩ := by
  intro h second bob
  have hinterleaves : Interleaves (fun c => (second ++ bob).filter (·.target = c))
      (bob ++ second) := by
    intro c
    have hnone : ∀ us : List Update, (∀ v ∈ us, v.target = ⟨⟨2⟩⟩ ∨ v.target = ⟨⟨3⟩⟩) →
        c ≠ ⟨⟨2⟩⟩ → c ≠ ⟨⟨3⟩⟩ → us.filter (·.target = c) = [] := by
      intro us htargets h2 h3
      rw [List.filter_eq_nil_iff]
      intro v hv
      rcases htargets v hv with hvc | hvc
      · simpa [hvc] using Ne.symm h2
      · simpa [hvc] using Ne.symm h3
    by_cases h2 : c = ⟨⟨2⟩⟩
    · subst h2; decide
    · by_cases h3 : c = ⟨⟨3⟩⟩
      · subst h3; decide
      · exact (hnone (bob ++ second) (by decide) h2 h3).trans
          (hnone (second ++ bob) (by decide) h2 h3).symm
  have hregistered : ∀ {c m}, h.registry.member? c = some m → m.handle = device 1 1 "alice" := by
    intro c m hm
    rcases member?_run Registry.mirrored_empty hm with ⟨m', hm', -⟩ | hattach
    · simp [idle, Registry.member?, Registry.empty] at hm'
    · simpa using hattach
  have hname : OneName h (second ++ bob) := by
    have hinvolved : ∀ a, Involved h (second ++ bob) a →
        a = device 1 1 "alice" ∨ a = device 2 1 "alice" ∨ a = device 3 2 "bob" := by
      intro a ha
      rcases ha with ⟨c, m, hm, rfl⟩ | hmem
      · exact Or.inl (hregistered hm)
      · simp only [second, bob, List.cons_append, List.nil_append, List.mem_cons,
          Update.attach.injEq, reduceCtorEq, false_or, List.not_mem_nil, or_false] at hmem
        exact Or.inr hmem
    intro a b ha hb _ huser
    rcases hinvolved a ha with rfl | rfl | rfl <;> rcases hinvolved b hb with rfl | rfl | rfl <;>
      first | rfl | exact absurd huser (by decide)
  obtain ⟨hreplies, hend, hgone⟩ :=
    @interleavings_agree _ _ _ (second ++ bob) (bob ++ second) (fun _ => rfl) hinterleaves hname
  obtain ⟨-, -, hslots, -⟩ := hgone ⟨⟨2⟩⟩ (by decide +kernel) (by decide)
  have hshown : NamedAt h ⟨⟨1⟩⟩ ⟨⟨1⟩⟩ := by
    have hslot : h.calls.slot? ⟨⟨1⟩⟩ ⟨⟨1⟩⟩ = some ⟨1, ⟨⟨⟨1⟩⟩, "alice"⟩⟩ := by decide +kernel
    intro e c m he hm _ _
    rw [hslot] at he
    cases he
    rw [hregistered hm]
    rfl
  refine ⟨hreplies, hend, ?_⟩
  rw [hslots _ _ (Or.inl hshown)]
  decide +kernel

/-- A name that the tracker keeps from a connection that is gone is not brought back: here
the tracker shows a user as the second device did, until a third one calls the user as the
first one does. -/
theorem kept_name_is_lost :
    ¬∀ (outboxes : ExtTreeMap ConnectionId Outbox) (steps : List Step) (us : List Update)
      (c : ConnectionId), OneName (after outboxes steps) us →
      (after outboxes steps).registry.member? c = none →
      (us.filter (·.target = c)).getLast? = some (.detach c) →
      ((after outboxes steps).play us).2.calls
        = ((after outboxes steps).play (us.filter (·.target ≠ c))).2.calls := by
  intro hall
  let steps : List Step := [.attach (device 1 1 "x"), .attach (device 2 1 "y"),
    .setInCall ⟨⟨1⟩⟩ true, .setInCall ⟨⟨2⟩⟩ true, .detach ⟨⟨2⟩⟩]
  let third : List Update := [.attach (device 3 1 "x"), .setInCall ⟨⟨3⟩⟩ true, .detach ⟨⟨3⟩⟩]
  have hname : OneName (after ∅ steps) third := by
    have hinvolved : ∀ a, Involved (after ∅ steps) third a →
        a.participant.name = "x" := by
      intro a ha
      rcases ha with ⟨c, m, hm, rfl⟩ | hmem
      · rcases member?_run Registry.mirrored_empty hm with ⟨m', hm', -⟩ | hattach
        · simp [idle, Registry.member?, Registry.empty] at hm'
        · simp only [steps, List.mem_cons, Step.attach.injEq, reduceCtorEq, List.not_mem_nil,
            or_false] at hattach
          rcases hattach with heq | heq
          · rw [heq]; rfl
          · -- the second device has been detached
            have hid := (inStep_run steps (inStep_idle ∅)).mirrored.id_eq hm
            rw [heq] at hid
            subst hid
            have hgone : (after ∅ steps).registry.member? (device 2 1 "y").id = none := by
              decide +kernel
            rw [hgone] at hm
            cases hm
      · simp only [third, List.mem_cons, Update.attach.injEq, reduceCtorEq, List.not_mem_nil,
          or_false] at hmem
        rw [hmem]
        rfl
    intro a b ha hb _ _
    rw [hinvolved a ha, hinvolved b hb]
  have hsame := hall ∅ steps third ⟨⟨3⟩⟩ hname (by decide +kernel) (by decide)
  have hshown := congrArg (fun t => t.snapshot ⟨⟨1⟩⟩) hsame
  exact absurd hshown (by decide +kernel)

end Hub

end RoomHub
