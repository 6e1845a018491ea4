import Rulebook.Calendar.DateTime

/-!
# Clocks

Functions of dates see the local time of a zone. The instant that they see is the one a caller
pinned, or else the one that the clock of the system shows.
-/
namespace Rulebook

/-- A time zone: its name, and the local time in it at an instant of universal time. -/
structure Zone where
  name : String
  localTime : DateTime → DateTime

/-- Universal time itself. -/
def Zone.utc : Zone := ⟨"UTC", id⟩

/-- The time settings of an evaluation, with what the clock of the system shows meanwhile. Both
instants are in universal time. -/
structure Clock where
  zone : Zone
  pinned : Option DateTime
  system : DateTime

namespace Clock

def now (clock : Clock) : DateTime :=
  clock.zone.localTime (clock.pinned.getD clock.system)

def today (clock : Clock) : Date :=
  clock.now.date

end Clock

end Rulebook
