import LabChase.Library.Runs

/-!
# Interrupt subscriptions (`timer.c`, `keyboard.c`, `mouse.c`, `rtc.c`)

`sys_irqsetpolicy` takes the bit of later notifications from the hook variable and then overwrites the variable with
an id of its own, which `sys_irqrmpolicy` uses.  The drivers of the timer and the RTC set the variable before each
call.  The keyboard's sets it once, as the program starts, and reports `KBD_IRQ` ever after; the mouse's reports what
it finds in it, as a byte.  So the bits reported are right exactly if the ids that the kernel left in the variables
of the keyboard and the mouse let them be (`subscriptions_right_iff`).
-/

namespace LabChase

open Runs

inductive Device where
  | timer
  | keyboard
  | mouse
  | rtc
  deriving DecidableEq, Repr

/-- What the kernel keeps of a subscription: its id, and the bit it sets in notifications. -/
structure Policy where
  id : Int
  bit : Int
  deriving DecidableEq, Repr

/-- The hook variables of the four drivers, and the policies of the kernel. -/
structure Hooks where
  hookIdTimer : Int
  hookIdKeyboard : Int
  hookIdMouse : Int
  hookIdRtc : Int
  policies : List Policy

/-- The hook variables as the program starts. -/
def Hooks.start : Hooks := ⟨0, 1, 12, 3, []⟩

/-- `sys_irqsetpolicy`: the policy the kernel makes, what it leaves in the hook variable, and its policies then. -/
def sysIrqsetpolicy (id hook : Int) (policies : List Policy) : Policy × Int × List Policy :=
  (⟨id, hook⟩, id, ⟨id, hook⟩ :: policies)

def sysIrqrmpolicy (hook : Int) (policies : List Policy) : List Policy := policies.filter fun p => p.id ≠ hook

/-- The bit number a driver stores through its argument, and the policy the kernel made for it. -/
structure Subscription where
  bitNo : UInt8
  policy : Policy
  deriving DecidableEq, Repr

/-- The bit reported is the bit of the notifications. -/
def Subscription.Right (s : Subscription) : Prop := (s.bitNo.toNat : Int) = s.policy.bit

instance : DecidablePred Subscription.Right := fun _ => inferInstanceAs (Decidable (_ = _))

def timerSubscribeInt (id : Int) (h : Hooks) : Hooks × Subscription :=
  let h := { h with hookIdTimer := 0 }
  let (policy, hook, policies) := sysIrqsetpolicy id h.hookIdTimer h.policies
  ({ h with hookIdTimer := hook, policies := policies }, ⟨0, policy⟩)

def keyboardSubscribeInt (id : Int) (h : Hooks) : Hooks × Subscription :=
  let (policy, hook, policies) := sysIrqsetpolicy id h.hookIdKeyboard h.policies
  ({ h with hookIdKeyboard := hook, policies := policies }, ⟨1, policy⟩)

def mouseSubscribeInt (id : Int) (h : Hooks) : Hooks × Subscription :=
  -- the variable is an `int`, the bit number a `uint8_t`
  let bitNo := UInt8.ofInt h.hookIdMouse
  let (policy, hook, policies) := sysIrqsetpolicy id h.hookIdMouse h.policies
  ({ h with hookIdMouse := hook, policies := policies }, ⟨bitNo, policy⟩)

def rtcSubscribeInt (id : Int) (h : Hooks) : Hooks × Subscription :=
  let h := { h with hookIdRtc := 8 }
  let (policy, hook, policies) := sysIrqsetpolicy id h.hookIdRtc h.policies
  ({ h with hookIdRtc := hook, policies := policies }, ⟨8, policy⟩)

/-- The hook variable of a driver. -/
def Hooks.hook (h : Hooks) : Device → Int
  | .timer => h.hookIdTimer
  | .keyboard => h.hookIdKeyboard
  | .mouse => h.hookIdMouse
  | .rtc => h.hookIdRtc

/-- `sys_irqrmpolicy` of the hook variable of `d`, which stays as it is. -/
def unsubscribeInt (d : Device) (h : Hooks) : Hooks := { h with policies := sysIrqrmpolicy (h.hook d) h.policies }

def timerUnsubscribeInt (h : Hooks) : Hooks := unsubscribeInt .timer h

def keyboardUnsubscribeInt (h : Hooks) : Hooks := unsubscribeInt .keyboard h

def mouseUnsubscribeInt (h : Hooks) : Hooks := unsubscribeInt .mouse h

def rtcUnsubscribeInt (h : Hooks) : Hooks := unsubscribeInt .rtc h

/-- A call of a driver; the kernel answers a subscription with the id `id`. -/
inductive DriverCall where
  | subscribe (d : Device) (id : Int)
  | unsubscribe (d : Device)
  deriving DecidableEq, Repr

def subscribeInt (d : Device) (id : Int) (h : Hooks) : Hooks × Subscription :=
  match d with
  | .timer => timerSubscribeInt id h
  | .keyboard => keyboardSubscribeInt id h
  | .mouse => mouseSubscribeInt id h
  | .rtc => rtcSubscribeInt id h

namespace DriverCall

def run (h : Hooks) : DriverCall → Hooks × List Subscription
  | .subscribe d id => ((subscribeInt d id h).1, [(subscribeInt d id h).2])
  | .unsubscribe .timer => (timerUnsubscribeInt h, [])
  | .unsubscribe .keyboard => (keyboardUnsubscribeInt h, [])
  | .unsubscribe .mouse => (mouseUnsubscribeInt h, [])
  | .unsubscribe .rtc => (rtcUnsubscribeInt h, [])

/-- The id a call leaves in the hook variable of `d`. -/
def idFor (d : Device) : DriverCall → Option Int
  | .subscribe d' id => if d' = d then some id else none
  | .unsubscribe _ => none

end DriverCall

/-- The subscriptions made by a sequence of calls. -/
def subscriptions (h : Hooks) (calls : List DriverCall) : List Subscription := outputs DriverCall.run h calls

/-- The ids with which the kernel answers the subscriptions of `d`, in order. -/
def idsFor (d : Device) (calls : List DriverCall) : List Int := calls.filterMap (DriverCall.idFor d)

/-- Each device is unsubscribed before it is subscribed again; `active` are the devices subscribed before. -/
def disciplined (active : List Device) : List DriverCall → Bool
  | [] => true
  | .subscribe d _ :: calls => d ∉ active && disciplined (d :: active) calls
  | .unsubscribe d :: calls => disciplined (active.filter (· ≠ d)) calls

/-! ### When a subscription is right -/

/-- With `hook` in its variable, the driver of `d` reports the right bit. -/
def Reports (d : Device) (hook : Int) : Prop :=
  match d with
  | .timer => True
  | .keyboard => hook = 1
  | .mouse => 0 ≤ hook ∧ hook < 256
  | .rtc => True

private theorem toNat_ofInt_eq_iff (hook : Int) : ((UInt8.ofInt hook).toNat : Int) = hook ↔ 0 ≤ hook ∧ hook < 256 := by
  have hbyte : ((UInt8.ofInt hook).toNat : Int) = hook % 256 := by
    show (((hook % 2 ^ 8).toNat % 2 ^ 8 : Nat) : Int) = hook % 256
    omega
  rw [hbyte]
  omega

private theorem subscribeInt_right_iff (d : Device) (id : Int) (h : Hooks) :
    (subscribeInt d id h).2.Right ↔ Reports d (h.hook d) := by
  cases d with
  | timer => exact iff_of_true rfl trivial
  | keyboard => exact eq_comm
  | mouse => exact toNat_ofInt_eq_iff h.hookIdMouse
  | rtc => exact iff_of_true rfl trivial

private theorem hook_run (c : DriverCall) (h : Hooks) (d : Device) :
    (c.run h).1.hook d = (c.idFor d).getD (h.hook d) := by
  cases c with
  | subscribe d' id => cases d' <;> cases d <;> rfl
  | unsubscribe d' => cases d' <;> cases d <;> rfl

/-- The hook variable of `d` holds what it held at first, then the ids of the kernel; all but the last are found by a
subscription. -/
private theorem subscriptions_right (h : Hooks) (calls : List DriverCall) :
    (∀ s ∈ subscriptions h calls, s.Right) ↔
      ∀ d, ∀ hook ∈ (h.hook d :: idsFor d calls).dropLast, Reports d hook := by
  induction calls generalizing h with
  | nil => simp [subscriptions, outputs, idsFor]
  | cons c calls ih =>
    have hrest := ih (c.run h).1
    simp only [subscriptions, hook_run] at hrest
    cases c with
    | unsubscribe d' =>
      have hids : ∀ d, idsFor d (.unsubscribe d' :: calls) = idsFor d calls := fun d => rfl
      have hnone : subscriptions h (.unsubscribe d' :: calls) =
          outputs DriverCall.run ((DriverCall.unsubscribe d').run h).1 calls := by
        cases d' <;> rfl
      simp only [hids, hnone]
      exact hrest
    | subscribe d' id =>
      have hids : ∀ d, idsFor d (.subscribe d' id :: calls) =
          if d' = d then id :: idsFor d calls else idsFor d calls := by
        intro d
        by_cases hd : d' = d
        · simp [idsFor, DriverCall.idFor, hd]
        · simp [idsFor, DriverCall.idFor, hd]
      have hall : (∀ s ∈ subscriptions h (.subscribe d' id :: calls), s.Right) ↔
          Reports d' (h.hook d') ∧ ∀ s ∈ subscriptions ((DriverCall.subscribe d' id).run h).1 calls, s.Right := by
        rw [← subscribeInt_right_iff d' id h]
        exact List.forall_mem_cons
      rw [hall, subscriptions, hrest]
      simp only [hids]
      constructor
      · rintro ⟨hnow, hlater⟩ d
        have hd := hlater d
        by_cases heq : d' = d
        · subst heq
          simpa [DriverCall.idFor, hnow] using hd
        · simpa [DriverCall.idFor, heq] using hd
      · intro h
        refine ⟨?_, fun d => ?_⟩
        · have hd := h d'
          rw [if_pos rfl, List.dropLast_cons_cons] at hd
          exact hd _ (List.mem_cons_self ..)
        · have hd := h d
          by_cases heq : d' = d
          · subst heq
            rw [if_pos rfl, List.dropLast_cons_cons] at hd
            simpa [DriverCall.idFor] using fun hook hhook => hd hook (List.mem_cons_of_mem _ hhook)
          · simpa [DriverCall.idFor, heq] using hd

/-- In every history of calls the drivers report the right bits exactly if the kernel answers each subscription of the
keyboard but the last with the id 1, and each of the mouse but the last with an id of one byte. -/
theorem subscriptions_right_iff (calls : List DriverCall) :
    (∀ s ∈ subscriptions Hooks.start calls, s.Right) ↔
      (∀ id ∈ (idsFor .keyboard calls).dropLast, id = 1) ∧
        ∀ id ∈ (idsFor .mouse calls).dropLast, 0 ≤ id ∧ id < 256 := by
  have hstart : ∀ (d : Device) (ids : List Int), Reports d (Hooks.start.hook d) →
      ((∀ hook ∈ (Hooks.start.hook d :: ids).dropLast, Reports d hook) ↔ ∀ id ∈ ids.dropLast, Reports d id) := by
    intro d ids hfirst
    cases ids with
    | nil => simp
    | cons id ids => rw [List.dropLast_cons_cons, List.forall_mem_cons, and_iff_right hfirst]
  have hmouseIrq : Reports .mouse (Hooks.start.hook .mouse) := ⟨by decide, by decide⟩
  rw [subscriptions_right]
  constructor
  · intro h
    exact ⟨(hstart .keyboard _ rfl).1 (h .keyboard), (hstart .mouse _ hmouseIrq).1 (h .mouse)⟩
  · rintro ⟨hkeyboard, hmouse⟩ d
    cases d with
    | timer => exact fun _ _ => trivial
    | keyboard => exact (hstart .keyboard _ rfl).2 hkeyboard
    | mouse => exact (hstart .mouse _ hmouseIrq).2 hmouse
    | rtc => exact fun _ _ => trivial

/-- The keyboard is subscribed, unsubscribed and subscribed again: the driver reports 1, and the kernel sets bit 5. -/
theorem keyboard_resubscribed_wrong :
    let calls := [DriverCall.subscribe .keyboard 5, .unsubscribe .keyboard, .subscribe .keyboard 6]
    disciplined [] calls ∧ subscriptions Hooks.start calls = [⟨1, ⟨5, 1⟩⟩, ⟨1, ⟨6, 5⟩⟩] ∧
      ¬ ∀ s ∈ subscriptions Hooks.start calls, s.Right := by
  decide

end LabChase
