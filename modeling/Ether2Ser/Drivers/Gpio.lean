import Ether2Ser.Drivers.V24Config
import Mathlib.Logic.Function.Basic

namespace ether2ser.gpio_driver

def V24_TXC_DCE : Nat := 0
def V24_RXC : Nat := 4
def V24_TXC_DTE : Nat := 5
def V24_DCD : Nat := 9
def V24_DSR : Nat := 10
def V24_CTS : Nat := 11
def V24_RXD : Nat := 12
def V24_RTS : Nat := 13
def V24_TXD : Nat := 14
def V24_DTR : Nat := 15
def V24_STATUS_LED : Nat := 25

/-- `gpio_function_t`, as far as the firmware selects one. -/
inductive GpioFunction where
  | gpio_func_sio
  | gpio_func_pio0
  | gpio_func_null
  deriving DecidableEq, Repr

/-- What a pin is set to: what drives it, the direction and the level that the
processor gives it, the direction that the state machines give it, and whether its
input and its output are inverted. -/
structure Pin where
  function : GpioFunction
  dir_out : Bool
  level : Bool
  pio_dir_out : Bool
  in_inverted : Bool
  out_inverted : Bool
  deriving DecidableEq, Repr

/-- What drives a pin, and the direction that the state machines give it. -/
def Pin.routing (pin : Pin) : GpioFunction × Bool := (pin.function, pin.pio_dir_out)

/-- The pins by their numbers. -/
abbrev Pins : Type := Nat → Pin

def pinsAtReset : Pins := fun _ =>
  { function := .gpio_func_null
    dir_out := false
    level := false
    pio_dir_out := false
    in_inverted := false
    out_inverted := false }

def Pins.modify (pins : Pins) (gpio : Nat) (change : Pin → Pin) : Pins :=
  Function.update pins gpio (change (pins gpio))

@[simp]
theorem Pins.modify_self (pins : Pins) (gpio : Nat) (change : Pin → Pin) :
    pins.modify gpio change gpio = change (pins gpio) := Function.update_self ..

theorem Pins.modify_of_ne (pins : Pins) {gpio other : Nat} (change : Pin → Pin) (h : other ≠ gpio) :
    pins.modify gpio change other = pins other := Function.update_of_ne h ..

/-- A pin after a change depends on that pin only. -/
theorem Pins.modify_congr {pins others : Pins} {gpio other : Nat} {change : Pin → Pin} (h : pins other = others other) :
    pins.modify gpio change other = others.modify gpio change other := by
  by_cases heq : other = gpio
  · subst heq
    rw [modify_self, modify_self, h]
  · rw [modify_of_ne _ _ heq, modify_of_ne _ _ heq, h]

theorem Pins.modify_keeps {α : Type} (field : Pin → α) {pins : Pins} {gpio other : Nat} {change : Pin → Pin}
    (h : ∀ pin, field (change pin) = field pin) : field (pins.modify gpio change other) = field (pins other) := by
  by_cases heq : other = gpio
  · subst heq
    rw [modify_self, h]
  · rw [modify_of_ne _ _ heq]

/-- The function of a pin is selected without the overrides that it had. -/
def gpio_set_function (gpio : Nat) (function : GpioFunction) (pins : Pins) : Pins :=
  pins.modify gpio fun pin => { pin with function, in_inverted := false, out_inverted := false }

def gpio_set_dir (gpio : Nat) (out : Bool) (pins : Pins) : Pins :=
  pins.modify gpio fun pin => { pin with dir_out := out }

def gpio_put (gpio : Nat) (value : Bool) (pins : Pins) : Pins := pins.modify gpio fun pin => { pin with level := value }

def gpio_init (gpio : Nat) (pins : Pins) : Pins :=
  gpio_set_function gpio .gpio_func_sio (gpio_put gpio false (gpio_set_dir gpio false pins))

def gpio_set_inover (gpio : Nat) (inverted : Bool) (pins : Pins) : Pins :=
  pins.modify gpio fun pin => { pin with in_inverted := inverted }

def gpio_set_outover (gpio : Nat) (inverted : Bool) (pins : Pins) : Pins :=
  pins.modify gpio fun pin => { pin with out_inverted := inverted }

def pio_gpio_init (gpio : Nat) (pins : Pins) : Pins := gpio_set_function gpio .gpio_func_pio0 pins

/-- `pio_sm_set_consecutive_pindirs` for one pin. -/
def pio_sm_set_pindir (gpio : Nat) (out : Bool) (pins : Pins) : Pins :=
  pins.modify gpio fun pin => { pin with pio_dir_out := out }

@[simp]
theorem routing_gpio_put (gpio other : Nat) (value : Bool) (pins : Pins) :
    (gpio_put gpio value pins other).routing = (pins other).routing := Pins.modify_keeps Pin.routing fun _ => rfl

@[simp]
theorem routing_gpio_set_dir (gpio other : Nat) (out : Bool) (pins : Pins) :
    (gpio_set_dir gpio out pins other).routing = (pins other).routing := Pins.modify_keeps Pin.routing fun _ => rfl

@[simp]
theorem routing_gpio_set_inover (gpio other : Nat) (inverted : Bool) (pins : Pins) :
    (gpio_set_inover gpio inverted pins other).routing = (pins other).routing :=
  Pins.modify_keeps Pin.routing fun _ => rfl

@[simp]
theorem routing_gpio_set_outover (gpio other : Nat) (inverted : Bool) (pins : Pins) :
    (gpio_set_outover gpio inverted pins other).routing = (pins other).routing :=
  Pins.modify_keeps Pin.routing fun _ => rfl

def inputs : List Nat := [V24_DCD, V24_DSR, V24_CTS, V24_RXD, V24_RXC]

def outputs : List Nat := [V24_RTS, V24_TXD, V24_DTR, V24_TXC_DTE, V24_TXC_DCE]

def init_pins (pins : Pins) : Pins :=
  outputs.foldl (fun pins gpio => gpio_set_dir gpio true (gpio_init gpio pins))
    (inputs.foldl (fun pins gpio => gpio_set_dir gpio false (gpio_init gpio pins)) pins)

/-- What `cat_gpio_set` does to a pin. -/
def drivePin (gpio : Nat) (value : Bool) (pins : Pins) : Pins :=
  gpio_put gpio value (gpio_set_dir gpio true (gpio_init gpio pins))

/-- What `cat_gpio_get` does to a pin: it takes over a pin that the processor does
not drive yet. -/
def samplePin (gpio : Nat) (pins : Pins) : Pins :=
  if (pins gpio).function ≠ .gpio_func_sio then gpio_set_dir gpio false (gpio_init gpio pins) else pins

/-- A pin that is made an input or an output of the processor is the only one that
changes. -/
theorem gpio_set_dir_gpio_init_of_ne (pins : Pins) {gpio other : Nat} (out : Bool) (h : other ≠ gpio) :
    gpio_set_dir gpio out (gpio_init gpio pins) other = pins other := by
  rw [gpio_set_dir, Pins.modify_of_ne _ _ h, gpio_init, gpio_set_function, Pins.modify_of_ne _ _ h, gpio_put,
    Pins.modify_of_ne _ _ h, gpio_set_dir, Pins.modify_of_ne _ _ h]

theorem drivePin_of_ne (pins : Pins) {gpio other : Nat} (value : Bool) (h : other ≠ gpio) :
    drivePin gpio value pins other = pins other := by
  rw [drivePin, gpio_put, Pins.modify_of_ne _ _ h, gpio_set_dir_gpio_init_of_ne pins true h]

theorem samplePin_of_ne (pins : Pins) {gpio other : Nat} (h : other ≠ gpio) :
    samplePin gpio pins other = pins other := by
  unfold samplePin
  split
  · exact gpio_set_dir_gpio_init_of_ne pins false h
  · rfl

/-- A pin that the processor drives is sampled as it is. -/
theorem samplePin_of_sio {pins : Pins} {gpio : Nat} (h : (pins gpio).function = .gpio_func_sio) :
    samplePin gpio pins = pins := if_neg (not_not_intro h)

end ether2ser.gpio_driver
