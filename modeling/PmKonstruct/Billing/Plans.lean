import PmKonstruct.Domain.Errors
import PmKonstruct.Library.PlainText

/- The price bands, and what a subscription entitles a company to. -/
namespace Plans
open PlainText DomainErrors

def currency : Text := text "aud"

def trialDays : Int := 30

/-- The top band has no upper bound. -/
structure Plan where
  key : Text
  label : Text
  minSeats : Int
  maxSeats : Option Int
  unitAmount : Int
  deriving DecidableEq, Repr

def starter : Plan := ⟨text "starter", text "1–5 seats", 1, some 5, 1000⟩

def team : Plan := ⟨text "team", text "6–10 seats", 6, some 10, 700⟩

def scale : Plan := ⟨text "scale", text "11+ seats", 11, none, 500⟩

def plans : List Plan := [starter, team, scale]

def planByKey (key : Text) : Option Plan := plans.find? (·.key = key)

/-- Falls back to the last band, which no count needs. -/
def planForSeats (seats : Int) : Plan := (plans.find? fun p => p.maxSeats.all fun most => seats ≤ most).getD scale

inductive SubscriptionStatus where
  | legacy
  | trialing
  | active
  | pastDue
  | unpaid
  | canceled
  | incomplete
  | incompleteExpired
  | expired
  | unknown
  deriving DecidableEq, Repr

def SubscriptionStatus.parse (raw : Text) : SubscriptionStatus :=
  let s := trim raw
  if s = text "trialing" then .trialing
  else if s = text "active" then .active
  else if s = text "past_due" then .pastDue
  else if s = text "unpaid" then .unpaid
  else if s = text "canceled" then .canceled
  else if s = text "incomplete" then .incomplete
  else if s = text "incomplete_expired" then .incompleteExpired
  else .unknown

def SubscriptionStatus.grantsAccess : SubscriptionStatus → Bool
  | .legacy | .trialing | .active => true
  | _ => false

def SubscriptionStatus.mayStartCheckout (status : SubscriptionStatus) : Bool := status ≠ .active

def validateCheckout (planKey : Text) (seats activeUsers : Int) : Except DomainError Plan :=
  match planByKey planKey with
  | none => .error (.invalid "planKey" "Choose a valid subscription package.")
  | some plan =>
    if seats < 1 then .error (.invalid "seatQuantity" "Seat quantity must be a positive whole number.")
    else if planForSeats seats ≠ plan then
      .error (.invalid "planKey" "The selected package does not match the requested seat quantity.")
    else if seats < activeUsers then
      .error (.invalid "seatQuantity" s!"Your plan needs at least {activeUsers} seats for current active users.")
    else .ok plan

theorem planByKey_planForSeats (seats : Int) : planByKey (planForSeats seats).key = some (planForSeats seats) := by
  have among : planForSeats seats ∈ plans := by
    unfold planForSeats
    cases found : plans.find? fun p => p.maxSeats.all fun most => seats ≤ most with
    | none => simp [plans]
    | some plan => exact List.mem_of_find?_eq_some found
  simp only [plans, List.mem_cons, List.not_mem_nil, or_false] at among
  rcases among with band | band | band <;> rw [band] <;> decide

/-- The band of a count that covers the active users can be bought. -/
theorem validateCheckout_band {seats activeUsers : Int} (positive : 1 ≤ seats) (covers : activeUsers ≤ seats) :
    validateCheckout (planForSeats seats).key seats activeUsers = .ok (planForSeats seats) := by
  simp only [validateCheckout, planByKey_planForSeats]
  rw [if_neg (by omega), if_neg (by simp), if_neg (by omega)]

end Plans
