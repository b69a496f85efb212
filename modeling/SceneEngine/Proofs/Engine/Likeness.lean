/-
Ticks do not see how components are kept.

Two engines are `Alike` when they have the same content: configuration, live entities and
their names, the components of each, the pairs contact remembers, time left over, and what
they have counted. Neither the order of slots nor the bits of kinds and the ids of systems
are part of it, nor is what the receivers have left in their channels. Engines that are
alike stay alike through a tick and send the same events and the same frame
(`tick_alike`): each system does to an entity what follows from its components, and where
entities come one after another, they come by their ids. Of engines that can be reached it
can be looked up whether they are alike (`Reachable.alike_iff`).
-/
import SceneEngine.Proofs.Engine.Effects
import SceneEngine.Proofs.World.Likeness

namespace SceneEngine

theorem Rendering.step_eq_ok_iff {w : World} {id : SystemId} {r r' : Rendering} :
    r.step id w = .ok r' ↔ ∃ packets, Rendering.packets w id = .ok packets ∧
      r' = ⟨r.frames.send ⟨r.next, activeCamera w, packets⟩, r.next + 1⟩ := by
  unfold step
  cases Rendering.packets w id <;>
    simp [bind, Except.bind, pure, Except.pure, eq_comm (a := r')]

instance Kind.decidableEqValue : (k : Kind) → DecidableEq k.Value
  | .transform => inferInstanceAs (DecidableEq (Transform F32))
  | .body => inferInstanceAs (DecidableEq Body)
  | .collider => inferInstanceAs (DecidableEq Collider)
  | .camera => inferInstanceAs (DecidableEq (Camera F32))
  | .drawable => inferInstanceAs (DecidableEq Drawable)
  | .custom _ => inferInstanceAs (DecidableEq Int64)

namespace Engine

variable {e e' f f' : Engine} {dt : F32}

/-! ## What a tick sends -/

/-- The events a simulation step tells of: overlaps that contact finds once bodies have
moved, and does not remember. -/
def news (e : Engine) (dt : F32) : List ContactEvent :=
  Contact.freshEvents e.contact.activePairs
    (Contact.found (e.world.after (Motion.step e.config.physics e.motionId dt)) e.contactId)

/-- The events a series of simulation steps tells of. -/
def newsOf : List F32 → Engine → List ContactEvent
  | [], _ => []
  | dt :: rest, e => e.news dt ++ newsOf rest (e.after (simulate dt))

/-- A tick that has led from `e` to `e'` sent these events, one after the other, and this
frame of the world as it was in the end, if there was a renderer. -/
structure Sends (e : Engine) (dt : F32) (e' : Engine) (events : List ContactEvent)
    (frame : Option Frame) : Prop where
  told : events = newsOf (e.stepsOf dt) e
  queued : e'.contact.events = events.foldl Channel.send e.contact.events
  unseen : e.renderer = none → frame = none ∧ e'.renderer = none
  seen : ∀ id r, e.renderer = some (id, r) → ∃ packets,
    Rendering.packets e'.world id = .ok packets ∧
    frame = some ⟨r.next, Rendering.activeCamera e'.world, packets⟩ ∧
    e'.renderer = some (id, ⟨r.frames.send ⟨r.next, Rendering.activeCamera e'.world, packets⟩,
      r.next + 1⟩)

theorem simulate_events (h : e.Wired) (hsim : simulate dt e = .ok () e') :
    e'.contact.events = (e.news dt).foldl Channel.send e.contact.events := by
  obtain ⟨w₁, _, _, _, hrun, rfl, _⟩ := h.exists_simulate dt
  obtain ⟨-, rfl⟩ := EStateM.Result.ok.inj (hsim.symm.trans hrun)
  rfl

theorem simulateAll_events (h : e.Wired) {lengths : List F32}
    (hall : simulateAll lengths e = .ok () e') :
    e'.contact.events = (newsOf lengths e).foldl Channel.send e.contact.events := by
  induction lengths generalizing e with
  | nil =>
    obtain rfl := simulateAll_nil_eq_ok_iff.mp hall
    rfl
  | cons dt rest ih =>
    obtain ⟨e₁, hsim, hrest⟩ := simulateAll_cons_eq_ok_iff.mp hall
    have hafter : e.after (simulate dt) = e₁ := by rw [after, hsim]
    rw [newsOf, hafter, List.foldl_append, ← simulate_events h hsim]
    exact ih (h.simulate hsim) hrest

theorem exists_sends (h : e.Wired) {stats : TickStats} (htick : tick dt e = .ok stats e') :
    ∃ frame, e.Sends dt e' (newsOf (e.stepsOf dt) e) frame := by
  obtain ⟨world, contact, renderer, hall, hshown, -, rfl⟩ := tick_eq_ok_iff.mp htick
  have hevents := simulateAll_events h hall
  unfold shown at hshown
  cases hr : e.renderer with
  | none =>
    rw [hr] at hshown
    obtain rfl := Except.ok.inj hshown
    refine ⟨none, rfl, hevents, fun _ => ⟨rfl, rfl⟩, fun id r hsome => ?_⟩
    rw [hr] at hsome
    cases hsome
  | some entry =>
    obtain ⟨id, r⟩ := entry
    rw [hr] at hshown
    cases hstep : r.step id world with
    | error error => simp [hstep, Except.map] at hshown
    | ok r' =>
      obtain ⟨packets, hpackets, rfl⟩ := Rendering.step_eq_ok_iff.mp hstep
      simp only [hstep, Except.map, Except.ok.injEq] at hshown
      subst hshown
      refine ⟨some ⟨r.next, Rendering.activeCamera world, packets⟩, rfl, hevents,
        fun hnone => ?_, fun id' r' hsome => ?_⟩
      · rw [hr] at hnone
        cases hnone
      · rw [hr, Option.some.injEq, Prod.mk.injEq] at hsome
        obtain ⟨rfl, rfl⟩ := hsome
        exact ⟨packets, hpackets, rfl, rfl⟩

/-- A frame sent is a frame counted. -/
theorem Sends.next {events : List ContactEvent} {frame : Option Frame}
    (h : e.Sends dt e' events frame) :
    e'.renderer.map (·.2.next) = (e.renderer.map (·.2.next)).map (· + 1) := by
  cases hr : e.renderer with
  | none => simp [(h.unseen hr).2]
  | some entry =>
    obtain ⟨packets, _, _, hr'⟩ := h.seen entry.1 entry.2 hr
    simp [hr']

/-! ## Engines with the same content -/

/-- The same content, however it is kept. -/
structure Alike (e f : Engine) : Prop where
  config : f.config = e.config
  living : f.world.livingEntities = e.world.livingEntities
  names : ∀ x, f.world.entities.name? x = e.world.entities.name? x
  parts : ∀ x, f.world.parts x = e.world.parts x
  activePairs : f.contact.activePairs = e.contact.activePairs
  leftover : f.leftover = e.leftover
  frame : f.frame = e.frame
  next : f.renderer.map (·.2.next) = e.renderer.map (·.2.next)

/-- Likeness at the live entities and the registered kinds, where it can be looked at. -/
def LooksAlike (e f : Engine) : Prop :=
  f.config = e.config ∧ f.world.livingEntities = e.world.livingEntities ∧
  (∀ x ∈ e.world.livingEntities, f.world.entities.name? x = e.world.entities.name? x ∧
    ∀ k ∈ e.world.storage.kinds ++ f.world.storage.kinds, f.world.get? k x = e.world.get? k x) ∧
  f.contact.activePairs = e.contact.activePairs ∧ f.leftover = e.leftover ∧ f.frame = e.frame ∧
  f.renderer.map (·.2.next) = e.renderer.map (·.2.next)

instance : Decidable (e.LooksAlike f) := inferInstanceAs (Decidable (_ ∧ _ ∧ _ ∧ _ ∧ _ ∧ _ ∧ _))

/-- Nothing else has a name or a component in an engine that can be reached. -/
theorem Reachable.alike_iff (he : Reachable e) (hf : Reachable f) : e.Alike f ↔ e.LooksAlike f := by
  constructor
  · intro h
    exact ⟨h.config, h.living, fun x _ => ⟨h.names x, fun k _ => congrFun (h.parts x) k⟩,
      h.activePairs, h.leftover, h.frame, h.next⟩
  · rintro ⟨hconfig, hliving, hcontent, hpairs, hleftover, hframe, hnext⟩
    have hnames : ∀ x, f.world.entities.name? x = e.world.entities.name? x := by
      intro x
      by_cases hx : x ∈ e.world.livingEntities
      · exact (hcontent x hx).1
      · rw [he.ready.world.name?_eq_none hx, hf.ready.world.name?_eq_none (hliving ▸ hx)]
    have hparts := he.ready.world.parts_eq hf.ready.world hliving fun x hx k hk =>
      (hcontent x hx).2 k (List.mem_append.mpr hk)
    exact ⟨hconfig, hliving, hnames, hparts, hpairs, hleftover, hframe, hnext⟩

theorem Alike.world (h : e.Alike f) (he : e.Wired) (hf : f.Wired) : e.world.Alike f.world where
  parts := h.parts
  tolerance := by rw [hf.tolerance, he.tolerance, h.config]

theorem Alike.division_eq (h : e.Alike f) (dt : F32) : f.division dt = e.division dt := by
  rw [division, division, h.config, h.leftover]

/-- One step of both. -/
theorem simulate_alike (he : e.Wired) (hf : f.Wired) (h : e.Alike f)
    (hsim : simulate dt e = .ok () e') :
    ∃ f', simulate dt f = .ok () f' ∧ e'.Alike f' ∧ f.news dt = e.news dt := by
  obtain ⟨w₁, w₂, w₃, solids, hrun, hw₁, h₁, hmoved, hg, h₂, houtcome, h₃, htended⟩ :=
    he.exists_simulate dt
  obtain ⟨v₁, v₂, v₃, others, hrun', hv₁, k₁, hmoved', hg', k₂, houtcome', k₃, htended'⟩ :=
    hf.exists_simulate dt
  obtain ⟨-, rfl⟩ := EStateM.Result.ok.inj (hsim.symm.trans hrun)
  -- Bodies have moved alike, so contact takes the same snapshot of both.
  have hmoved₁ : w₁.Alike v₁ :=
    ⟨fun x => by rw [hmoved', hmoved, h.config, h.parts],
      by rw [k₁.tolerance, h₁.tolerance, (h.world he hf).tolerance]⟩
  have hgather : Contact.gather v₁ f.contactId = Contact.gather w₁ e.contactId :=
    hmoved₁.gather_eq (h₁.coherent he.ready.world) (k₁.coherent hf.ready.world) (by decide)
      (he.installed.contact.extends (.rewritten h₁.toRewritten))
      (hf.installed.contact.extends (.rewritten k₁.toRewritten))
  have hfound : Contact.found v₁ f.contactId = Contact.found w₁ e.contactId := by
    rw [Contact.found, hgather, Contact.found]
  obtain rfl : others = solids := Except.ok.inj (hg'.symm.trans (hgather.trans hg))
  have hw₃ : w₃.entities = e.world.entities := ((h₁.trans h₂).trans h₃).entities
  have hv₃ : v₃.entities = f.world.entities := ((k₁.trans k₂).trans k₃).entities
  refine ⟨_, hrun', ⟨h.config, ?_, fun x => ?_, fun x => ?_, ?_, h.leftover, h.frame, h.next⟩, ?_⟩
  · rw [World.livingEntities, hv₃, World.livingEntities, hw₃]
    exact h.living
  · rw [hv₃, hw₃]
    exact h.names x
  · rw [htended', houtcome', hmoved₁.parts, h.config, htended, houtcome]
  · rw [hfound]
    rfl
  · rw [news, news, ← hw₁, ← hv₁, hfound, h.activePairs]

theorem simulateAll_alike (he : e.Wired) (hf : f.Wired) (h : e.Alike f) {lengths : List F32}
    (hall : simulateAll lengths e = .ok () e') :
    ∃ f', simulateAll lengths f = .ok () f' ∧ e'.Alike f' ∧ newsOf lengths f = newsOf lengths e := by
  induction lengths generalizing e f with
  | nil =>
    obtain rfl := simulateAll_nil_eq_ok_iff.mp hall
    exact ⟨f, rfl, h, rfl⟩
  | cons dt rest ih =>
    obtain ⟨e₁, hsim, hrest⟩ := simulateAll_cons_eq_ok_iff.mp hall
    obtain ⟨f₁, hsim', h₁, hnews⟩ := simulate_alike he hf h hsim
    obtain ⟨f', hrest', h', hnews'⟩ := ih (he.simulate hsim) (hf.simulate hsim') h₁ hrest
    refine ⟨f', simulateAll_cons_eq_ok_iff.mpr ⟨f₁, hsim', hrest'⟩, h', ?_⟩
    have hafter : e.after (simulate dt) = e₁ := by rw [after, hsim]
    have hafter' : f.after (simulate dt) = f₁ := by rw [after, hsim']
    rw [newsOf, newsOf, hafter, hafter', hnews, hnews']

/-! ## A tick of both -/

section Tick

variable {stats stats' : TickStats} {events events' : List ContactEvent} {frame frame' : Option Frame}

theorem tick_alike (he : e.Wired) (hf : f.Wired) (h : e.Alike f) (htick : tick dt e = .ok stats e')
    (htick' : tick dt f = .ok stats' f') (hs : e.Sends dt e' events frame)
    (hs' : f.Sends dt f' events' frame') : stats' = stats ∧ events' = events ∧ e'.Alike f' := by
  have hnext : f'.renderer.map (·.2.next) = e'.renderer.map (·.2.next) := by
    rw [hs'.next, hs.next, h.next]
  have hsteps : f.stepsOf dt = e.stepsOf dt := by rw [stepsOf, stepsOf, h.division_eq]
  obtain ⟨world, contact, renderer, hall, _, rfl, rfl⟩ := tick_eq_ok_iff.mp htick
  obtain ⟨world', contact', renderer', hall', _, rfl, rfl⟩ := tick_eq_ok_iff.mp htick'
  rw [hsteps] at hall'
  obtain ⟨f₁, hrun, h₁, hnews⟩ := simulateAll_alike he hf h hall
  obtain ⟨-, rfl⟩ := EStateM.Result.ok.inj (hall'.symm.trans hrun)
  refine ⟨by rw [h.frame, h.division_eq], by rw [hs'.told, hs.told, hsteps, hnews], ?_⟩
  exact ⟨h.config, h₁.living, h₁.names, h₁.parts, h₁.activePairs,
    by rw [h.division_eq], congrArg (· + 1) h.frame, hnext⟩

theorem Sends.frame_eq (hs : e.Sends dt e' events frame) (hs' : f.Sends dt f' events' frame')
    (h : e.Alike f) (h' : e'.Alike f') (he' : e'.Wired) (hf' : f'.Wired) : frame' = frame := by
  have hnext := h.next
  have hworld := h'.world he' hf'
  cases hr : e.renderer with
  | none =>
    rw [hr, Option.map_none, Option.map_eq_none_iff] at hnext
    rw [(hs.unseen hr).1, (hs'.unseen hnext).1]
  | some entry =>
    obtain ⟨id, r⟩ := entry
    rw [hr, Option.map_some] at hnext
    obtain ⟨⟨jd, r'⟩, hr', hnext⟩ := Option.map_eq_some_iff.mp hnext
    obtain ⟨packets, hpackets, rfl, hsent⟩ := hs.seen id r hr
    obtain ⟨packets', hpackets', rfl, hsent'⟩ := hs'.seen jd r' hr'
    have hsame := hworld.packets_eq he'.ready.world hf'.ready.world (by decide)
      (he'.rendering _ _ hsent) (hf'.rendering _ _ hsent')
    rw [hpackets, hpackets', Except.ok.injEq] at hsame
    have hcamera := hworld.activeCamera_eq he'.ready.world.storage hf'.ready.world.storage
    rw [hsame, hcamera, show r'.next = r.next from hnext]

/-- **Ticks see the content and not how it is kept.** Of two engines that can be reached and
have the same content, a tick by the same time gives the same account, sends the same
events in the same order and the same frame, and leaves the same content. -/
theorem tick_sees_content (he : Reachable e) (hf : Reachable f) (h : e.Alike f) (dt : F32) :
    ∃ stats events frame e' f', tick dt e = .ok stats e' ∧ tick dt f = .ok stats f' ∧
      e.Sends dt e' events frame ∧ f.Sends dt f' events frame ∧ e'.Alike f' := by
  obtain ⟨stats, e', htick, hc, _⟩ := he.ready.tick dt
  obtain ⟨stats', f', htick', hc', _⟩ := hf.ready.tick dt
  obtain ⟨frame, hs⟩ := exists_sends he.wired htick
  obtain ⟨frame', hs'⟩ := exists_sends hf.wired htick'
  obtain ⟨rfl, hevents, h'⟩ := tick_alike he.wired hf.wired h htick htick' hs hs'
  obtain rfl := hs.frame_eq hs' h h' (he.wired.continues hc) (hf.wired.continues hc')
  rw [hevents] at hs'
  exact ⟨stats', _, frame', e', f', htick, htick', hs, hs', h'⟩

/-- Two cameras, of which the first is drawn. A renderer is attached in the end. -/
def watchedLast (e : Engine) : Engine :=
  ((e.serving [.create none, .create none, .add .transform 0 .origin, .add .camera 0 .standard,
    .add .transform 1 .origin, .add .camera 1 .standard]).after (attachRenderer 4)).serving
    [.add .drawable 0 ⟨0, 0, true⟩]

/-- The same with the cameras in the other order, and a renderer attached first. -/
def watchedFirst (e : Engine) : Engine :=
  (e.after (attachRenderer 4)).serving [.create none, .create none, .add .transform 1 .origin,
    .add .camera 1 .standard, .add .transform 0 .origin, .add .camera 0 .standard,
    .add .drawable 0 ⟨0, 0, true⟩]

theorem reachable_watchedLast (h : Reachable e) : Reachable (watchedLast e) :=
  .serving (.attachRenderer _ (h.serving _)) _

theorem reachable_watchedFirst (h : Reachable e) : Reachable (watchedFirst e) :=
  .serving (.attachRenderer _ h) _

/-- The cameras of the second engine are in the other order and their kind has another bit,
as a renderer was attached first. -/
theorem tick_sees_content_reordered :
    ∃ (e f e' f' : Engine) (stats : TickStats) (events : List ContactEvent) (frame : Option Frame),
      Reachable e ∧ Reachable f ∧ e.Alike f ∧
      (e.world.storage.typeId? .camera, f.world.storage.typeId? .camera) = (some 3, some 4) ∧
      (e.world.storage.column? .camera).map Column.owners = some #[0, 1] ∧
      (f.world.storage.column? .camera).map Column.owners = some #[1, 0] ∧
      tick 1 e = .ok stats e' ∧ tick 1 f = .ok stats f' ∧
      e.Sends 1 e' events frame ∧ f.Sends 1 f' events frame ∧ e'.Alike f' := by
  have hfacts : (Engine.new .standard).toOption.any (fun e =>
      (watchedLast e).LooksAlike (watchedFirst e) ∧
      ((watchedLast e).world.storage.typeId? .camera, (watchedFirst e).world.storage.typeId? .camera) =
        (some 3, some 4) ∧
      ((watchedLast e).world.storage.column? .camera).map Column.owners = some #[0, 1] ∧
      ((watchedFirst e).world.storage.column? .camera).map Column.owners = some #[1, 0]) = true := by
    decide +kernel
  obtain ⟨e₀, hnew, hfacts⟩ := (Option.any_eq_true _ _).mp hfacts
  obtain ⟨hlooks, hbits, hslots, hslots'⟩ := of_decide_eq_true hfacts
  have hreach₀ : Reachable e₀ := .new (eq_ok_of_toOption hnew)
  have hreach := reachable_watchedLast hreach₀
  have hreach' := reachable_watchedFirst hreach₀
  have halike : (watchedLast e₀).Alike (watchedFirst e₀) := (hreach.alike_iff hreach').mpr hlooks
  obtain ⟨stats, events, frame, e', f', htick, htick', hs, hs', h'⟩ :=
    tick_sees_content hreach hreach' halike 1
  exact ⟨watchedLast e₀, watchedFirst e₀, e', f', stats, events, frame, hreach, hreach', halike, hbits,
    hslots, hslots', htick, htick', hs, hs', h'⟩

end Tick

end Engine

end SceneEngine
