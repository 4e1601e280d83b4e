import PmKonstruct.Billing.BillingPrograms

/- How the sessions and subscriptions at Stripe go on from one statement to the next. -/
namespace StripeEvolution
open PlainText DomainErrors Accounts Plans BillingPrograms
open StripeAccount (Account CheckoutSession HeldSubscription)

/-- The session is found under its id; once it is complete, so is what it sold, to the same customer. -/
structure Standing (account : Account) (s : CheckoutSession) : Prop where
  found : StripeAccount.session account s.id = some s
  visible : trim s.id ≠ []
  sold : s.status = text "complete" → ∃ sub held, s.subscription = some sub ∧
    StripeAccount.subscription account sub = some held ∧ held.customer = s.customer

/-- What is there after a statement: the old sessions and subscriptions, changed in place, behind what was opened or sold. -/
structure Evolves (account after : Account) (id : Text) (statement : Statement) (opened : List CheckoutSession)
    (sold : List HeldSubscription) (f : CheckoutSession → CheckoutSession) (g : HeldSubscription → HeldSubscription) :
    Prop where
  sessions : after.sessions = opened ++ account.sessions.map f
  subscriptions : after.subscriptions = sold ++ account.subscriptions.map g
  kept : ∀ s, (f s).id = s.id ∧ (f s).company = s.company ∧ (f s).customer = s.customer
  held : ∀ s, (g s).id = s.id ∧ (g s).customer = s.customer
  asked : ∀ s ∈ opened, ∃ req, statement = .createCheckoutSession req ∧
    s = ⟨id, req.customerId, req.priceId, req.seats, req.trialDays, req.companyId, text "open", none⟩
  drawn : ∀ s ∈ sold, s.id = id
  paid : ∀ s, StripeAccount.session account s.id = some s → (f s).status = text "complete" →
    f s = s ∨ (f s).subscription = some id ∧ sold = [StripeAccount.bought id s]

section Stripe
variable {account after : Account} {id : Text} {company : CompanyId} {statement : Statement} {s : CheckoutSession}

theorem evolves_mapped {f : CheckoutSession → CheckoutSession} {g : HeldSubscription → HeldSubscription}
    (sessions : after.sessions = account.sessions.map f) (subscriptions : after.subscriptions = account.subscriptions.map g)
    (kept : ∀ s, (f s).id = s.id ∧ (f s).company = s.company ∧ (f s).customer = s.customer)
    (held : ∀ s, (g s).id = s.id ∧ (g s).customer = s.customer)
    (unpaid : ∀ s, (f s).status = text "complete" → f s = s) :
    Evolves account after id statement [] [] f g where
  sessions := sessions
  subscriptions := subscriptions
  kept := kept
  held := held
  asked _ member := by cases member
  drawn _ member := by cases member
  paid s _ complete := .inl (unpaid s complete)

theorem evolves_still (sessions : after.sessions = account.sessions)
    (subscriptions : after.subscriptions = account.subscriptions) :
    Evolves account after id statement [] [] (fun s => s) (fun s => s) :=
  evolves_mapped (by simpa using sessions) (by simpa using subscriptions) (fun _ => ⟨rfl, rfl, rfl⟩)
    (fun _ => ⟨rfl, rfl⟩) fun _ _ => rfl

theorem complete_evolves {sid : Text} (found : StripeAccount.session account sid = some s)
    (pending : s.status = text "open") :
    Evolves account (StripeAccount.act account id (.complete sid)) id statement [] [StripeAccount.bought id s]
      (fun t => if t.id = sid && t.status = text "open" then
        { t with status := text "complete", subscription := some id } else t) (fun t => t) where
  sessions := by simp [StripeAccount.act, found, pending]
  subscriptions := by simp [StripeAccount.act, found, pending]
  kept t := by split <;> exact ⟨rfl, rfl, rfl⟩
  held _ := ⟨rfl, rfl⟩
  asked _ member := by cases member
  drawn t member := by rw [List.mem_singleton.mp member]; rfl
  paid t first _ := by
    split
    · next this =>
      have named : t.id = sid := of_decide_eq_true (Bool.and_eq_true_iff.mp this).1
      rw [named, found, Option.some.injEq] at first
      exact .inr ⟨rfl, by rw [first]⟩
    · exact .inl rfl

theorem act_evolves (action : StripeAccount.Action) :
    ∃ opened sold f g, Evolves account (StripeAccount.act account id action) id statement opened sold f g := by
  cases action with
  | complete sid =>
    cases found : StripeAccount.session account sid with
    | none => exact ⟨_, _, _, _, evolves_still (by simp [StripeAccount.act, found]) (by simp [StripeAccount.act, found])⟩
    | some s =>
      by_cases pending : s.status = text "open"
      · exact ⟨_, _, _, _, complete_evolves found pending⟩
      · exact ⟨_, _, _, _, evolves_still (by simp [StripeAccount.act, found, pending])
          (by simp [StripeAccount.act, found, pending])⟩
  | expire sid =>
    refine ⟨_, _, _, _, evolves_mapped rfl (List.map_id _).symm (fun t => ?_) (fun _ => ⟨rfl, rfl⟩) fun t complete => ?_⟩
    · split <;> exact ⟨rfl, rfl, rfl⟩
    · split at complete
      · have clash : text "expired" = text "complete" := complete
        exact absurd clash (by decide)
      · next apart => exact if_neg apart
  | changeStatus other status =>
    refine ⟨_, _, _, _, evolves_mapped (List.map_id _).symm rfl (fun _ => ⟨rfl, rfl, rfl⟩) (fun t => ?_) fun _ _ => rfl⟩
    split <;> exact ⟨rfl, rfl⟩
  | changeSeats other seats =>
    refine ⟨_, _, _, _, evolves_mapped (List.map_id _).symm rfl (fun _ => ⟨rfl, rfl, rfl⟩) (fun t => ?_) fun _ _ => rfl⟩
    split <;> exact ⟨rfl, rfl⟩

theorem effect_evolves (effect : Effect account id statement after) :
    ∃ opened sold f g, Evolves account after id statement opened sold f g := by
  cases effect with
  | untouched => exact ⟨_, _, _, _, evolves_still rfl rfl⟩
  | priced plan prices => exact ⟨_, _, _, _, evolves_still rfl rfl⟩
  | customer c email name => exact ⟨_, _, _, _, evolves_still rfl rfl⟩
  | acted action => exact act_evolves action
  | session req =>
    refine ⟨[⟨id, req.customerId, req.priceId, req.seats, req.trialDays, req.companyId, text "open", none⟩], [], fun s => s,
      fun s => s, ⟨by simp, by simp, fun _ => ⟨rfl, rfl, rfl⟩, fun _ => ⟨rfl, rfl⟩, fun s member => ?_, ?_, ?_⟩⟩
    · exact ⟨req, rfl, List.mem_singleton.mp member⟩
    · intro s member
      cases member
    · exact fun _ _ _ => .inl rfl

section Later
variable {opened : List CheckoutSession} {sold : List HeldSubscription} {f : CheckoutSession → CheckoutSession}
    {g : HeldSubscription → HeldSubscription}

/-- A subscription that is found is found with the same customer afterwards. -/
theorem sold_later (evolves : Evolves account after id statement opened sold f g)
    (drawn : StripeAccount.unused account id = true) {sub : Text} {held : HeldSubscription}
    (found : StripeAccount.subscription account sub = some held) :
    ∃ now, StripeAccount.subscription after sub = some now ∧ now.customer = held.customer := by
  obtain ⟨member, named⟩ := StripeAccount.subscription_named found
  have apart : ∀ t ∈ sold, ¬ (decide (t.id = sub)) = true := by
    intro t new same
    have equal : id = sub := (evolves.drawn t new).symm.trans (of_decide_eq_true same)
    exact (StripeAccount.unused_spec drawn).subscription held member (named.trans equal.symm)
  refine ⟨g held, ?_, (evolves.held held).2⟩
  have same : (fun t => decide ((g t).id = sub)) = fun t => decide (t.id = sub) := by
    funext t
    rw [(evolves.held t).1]
  rw [StripeAccount.subscription, evolves.subscriptions, List.find?_append, List.find?_eq_none.mpr apart, Option.none_or,
    List.find?_map, Function.comp_def, same]
  exact congrArg (Option.map g) found

/-- So is a session that is found under its id. -/
theorem found_later (evolves : Evolves account after id statement opened sold f g)
    (drawn : StripeAccount.unused account id = true) (found : StripeAccount.session account s.id = some s) :
    StripeAccount.session after (f s).id = some (f s) := by
  obtain ⟨member, -⟩ := StripeAccount.session_named found
  have apart : ∀ t ∈ opened, ¬ (decide (t.id = s.id)) = true := by
    intro t new same
    obtain ⟨req, -, rfl⟩ := evolves.asked t new
    exact (StripeAccount.unused_spec drawn).session s member (of_decide_eq_true same).symm
  have same : (fun t => decide ((f t).id = s.id)) = fun t => decide (t.id = s.id) := by
    funext t
    rw [(evolves.kept t).1]
  rw [(evolves.kept s).1, StripeAccount.session, evolves.sessions, List.find?_append, List.find?_eq_none.mpr apart,
    Option.none_or, List.find?_map, Function.comp_def, same]
  exact congrArg (Option.map f) found

theorem standing_later (evolves : Evolves account after id statement opened sold f g)
    (drawn : StripeAccount.unused account id = true) (standing : Standing account s) : Standing after (f s) where
  found := found_later evolves drawn standing.found
  visible := by
    rw [(evolves.kept s).1]
    exact standing.visible
  sold complete := by
    rcases evolves.paid s standing.found complete with same | ⟨named, bought⟩
    · rw [same] at complete ⊢
      obtain ⟨sub, held, recorded, found, owner⟩ := standing.sold complete
      obtain ⟨now, there, kept⟩ := sold_later evolves drawn found
      exact ⟨sub, now, recorded, there, kept.trans owner⟩
    · refine ⟨id, StripeAccount.bought id s, named, ?_, (evolves.kept s).2.2.symm⟩
      rw [StripeAccount.subscription, evolves.subscriptions, bought]
      exact List.find?_cons_of_pos (by simp [StripeAccount.bought])

/-- A new session is found first. -/
theorem standing_opened (evolves : Evolves account after id statement opened sold f g)
    (drawn : StripeAccount.unused account id = true) (new : s ∈ opened) : Standing after s where
  found := by
    rw [StripeAccount.session, evolves.sessions, List.find?_append]
    cases first : opened.find? fun t => decide (t.id = s.id) with
    | none => exact absurd (decide_eq_true rfl) (List.find?_eq_none.mp first s new)
    | some t =>
      obtain ⟨req, rfl, rfl⟩ := evolves.asked s new
      obtain ⟨other, same, rfl⟩ := evolves.asked t (List.mem_of_find?_eq_some first)
      cases same
      rfl
  visible := by
    obtain ⟨req, -, rfl⟩ := evolves.asked s new
    exact (StripeAccount.unused_spec drawn).visible
  sold complete := by
    obtain ⟨req, -, rfl⟩ := evolves.asked s new
    have clash : text "open" = text "complete" := complete
    exact absurd clash (by decide)

end Later

end Stripe

end StripeEvolution
