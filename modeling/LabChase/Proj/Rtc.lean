import LabChase.Proj.Picture

/-!
# The clock (`rtc.c`)

`proj_main_loop` reads the register of the hours once, before the first menu, and compares the byte it finds with
`0x19`.  That is 19 hours only for a clock that counts 24 hours in BCD: in binary no hour of the day is that late, and a
clock that counts 12 hours sets bit 7 from noon on.  Every game of a run has the background of that one byte
(`night_by_the_clock`).
-/

namespace LabChase

open FlatMemory Runs

/-- How the clock writes the hours, as its status register B says. -/
structure ClockFormat where
  binary : Bool
  twelveHours : Bool
  deriving DecidableEq, Repr

/-- The clock behind the ports: `RTC_DATA_REG` stands for the register whose number was written to `RTC_ADDRESS_REG`. -/
structure Clock where
  address : UInt8
  register : UInt8 → UInt8

/-- Whether the two system calls of a function succeed, and the registers when the second one is made. -/
structure ClockAccess where
  firstOk : Bool
  secondOk : Bool
  ticked : UInt8 → UInt8

/-- A return value, what `data` points to, and what is printed. -/
structure ReadReg where
  returned : Nat
  data : UInt8
  printed : List String
  deriving DecidableEq, Repr

def rtcHours : UInt8 := 4

def rtcReadReg (reg data : UInt8) (k : ClockAccess) (c : Clock) : ReadReg × Clock :=
  if k.firstOk then
    let c := { address := reg, register := k.ticked }
    if k.secondOk then (⟨0, c.register c.address, []⟩, c)
    else (⟨1, data, ["Error reading the register\n"]⟩, c)
  else (⟨1, data, ["Error setting the adress register\n"]⟩, c)

def readHours (hours : UInt8) (k : ClockAccess) (c : Clock) : ReadReg × Clock := rtcReadReg rtcHours hours k c

/-- The local `hour` of `proj_main_loop`, which is uninitialised before and whose return value nobody looks at. -/
def mainHour (hour : UInt8) (k : ClockAccess) (c : Clock) : UInt8 := (readHours hour k c).1.data

/-! ### The hours of the day -/

/-- Two decimal digits. -/
def bcd (n : Nat) : UInt8 := UInt8.ofNat (16 * (n / 10) + n % 10)

/-- The byte of the register of the hours at the hour `h`. -/
def ClockFormat.encode (f : ClockFormat) (h : Nat) : UInt8 :=
  let digits := fun n => if f.binary then UInt8.ofNat n else bcd n
  if f.twelveHours then
    digits (if h % 12 = 0 then 12 else h % 12) ||| if 12 ≤ h then 0x80 else 0
  else digits h

/-- The hours that the program takes for night. -/
def ClockFormat.Night (f : ClockFormat) (h : Nat) : Prop :=
  if f.twelveHours then 12 ≤ h else f.binary = false ∧ 19 ≤ h

instance (f : ClockFormat) (h : Nat) : Decidable (f.Night h) :=
  inferInstanceAs (Decidable (if f.twelveHours then 12 ≤ h else f.binary = false ∧ 19 ≤ h))

private theorem ClockFormat.encode_lt_iff (f : ClockFormat) {h : Nat} (hh : h < 24) :
    f.encode h < 0x19 ↔ ¬ f.Night h := by
  have hall : ∀ binary twelveHours, ∀ h : Fin 24,
      (ClockFormat.mk binary twelveHours).encode h < 0x19 ↔ ¬ (ClockFormat.mk binary twelveHours).Night h := by
    decide
  exact hall f.binary f.twelveHours ⟨h, hh⟩

/-- The clock is read at the hour `h`, and that is the hour of the whole run: every game of it begins on a white screen
if the program takes `h` for night and on a black one otherwise, and its first move is a crash in the one case and none
in the other. -/
theorem night_by_the_clock {w : World} (h3 : w.screen.bytesPerPixel = 3) {f : ClockFormat} {h : Nat} (hh : h < 24)
    {hour : UInt8} {k : ClockAccess} {c : Clock} (hok : k.firstOk ∧ k.secondOk)
    (hclock : k.ticked rtcHours = f.encode h)
    (hhour : w.hour = mainHour hour k c) {rs : List Receive} {r : Receive} (hstart : StartsGame w (mainRun w rs) r) :
    let start := (mainRun w (rs ++ [r])).video
    (∀ x y, w.screen.OnScreen x y → findColor w.screen start.videoMem x y = if f.Night h then 0xFFFFFF else 0) ∧
      ∀ cmd : Command, ¬ cmd.Sideways → BlockOnScreen w.screen (cmd.first.target start) →
        ((cmd.run w.screen start).1 = 1 ↔ f.Night h) := by
  intro start
  obtain ⟨-, v₀, hc, hvideo⟩ := startsGame_video hstart
  have hread : mainHour hour k c = k.ticked rtcHours := by
    simp only [mainHour, readHours, rtcReadReg, hok.1, hok.2, ↓reduceIte]
  have hnight : w.hour < 0x19 ↔ ¬ f.Night h := by rw [hhour, hread, hclock, f.encode_lt_iff hh]
  have hbegin : start = startGame w.screen w.hour v₀ := hvideo
  rw [hbegin]
  refine ⟨fun x y hxy => ?_, fun cmd hmove hon => ?_⟩
  · rw [findColor_start h3 hc w.hour hxy, backgroundColor]
    by_cases hn : f.Night h
    · rw [if_neg (not_not.2 hn ∘ hnight.1), if_pos hn]
    · rw [if_pos (hnight.2 hn), if_neg hn]
  · rw [Command.run_start_fst h3 hc w.hour hmove hon, hnight, not_not]

/-- Twelve o'clock on a BCD clock is day, on a clock of 12 hours it would be night. -/
theorem night_by_the_clock_noon :
    findColor (world115 0x12).screen (mainRun (world115 0x12) click).video.videoMem 0 0 =
      if (ClockFormat.mk false false).Night 12 then 0xFFFFFF else 0 :=
  (@night_by_the_clock (world115 0x12) rfl ⟨false, false⟩ 12 (by decide) 0 ⟨true, true, fun _ => 0x12⟩ ⟨0, fun _ => 0⟩
    ⟨rfl, rfl⟩ rfl rfl [mouseByte 0x09, mouseByte 0] (mouseByte 0) ⟨by decide +kernel, by decide +kernel⟩).1 0 0
    (by decide)

end LabChase
