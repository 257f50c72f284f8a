/-
# Timeouts

`internal/timeout`: a setting is a duration, "disabled", or "use the default".
-/

import Sesame.Stdlib

namespace Sesame.Timeout

/-- `timeout.Setting`; the zero value means "use the default". -/
structure Setting where
  val : Int64 := 0
  valset : Bool := false
  disabled : Bool := false
  deriving DecidableEq

def Setting.useDefault (s : Setting) : Bool := !s.disabled && !s.valset

def disabledSetting : Setting := { disabled := true }

def durationSetting (duration : Int64) : Setting :=
  if duration = 0 then {} else { val := duration, valset := true }

variable (lib : Stdlib)

/-- The duration of a text, or the error that both parsers return. -/
def parseText (timeout : String) : Except String Int64 :=
  match lib.parseDuration timeout with
  | .error err => .error ("unable to parse timeout string " ++ lib.quote timeout ++ ": " ++ err)
  | .ok d => .ok d

def parse (timeout : String) : Except String Setting :=
  if timeout = "" then .ok {}
  else if timeout = "infinity" ∨ timeout = "infinite" then .ok disabledSetting
  else (parseText lib timeout).map durationSetting

def parseMaxAge (timeout : String) : Except String Setting :=
  if timeout = "" then .ok {}
  else (parseText lib timeout).map fun d => if d = 0 then disabledSetting else durationSetting d

end Sesame.Timeout
