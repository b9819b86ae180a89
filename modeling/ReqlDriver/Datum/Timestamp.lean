import ReqlDriver.Datum.Basic
import ReqlDriver.Time.Offset

namespace ReqlDriver

namespace Timestamp

def thousand : Binary64 := Binary64.ofNat 1000

def millis (t : Timestamp) : Int :=
  (t.seconds.mul thousand).saturate Binary64.round Width.int64

def toMoment? (t : Timestamp) : Option Moment :=
  (Offset.read? t.zone).bind fun offset => Moment.ofMillis? t.millis offset

def ofMoment (m : Moment) : Timestamp where
  seconds := (Binary64.ofInt m.seconds).add ((Binary64.ofNat (m.nanos / 1000000)).div thousand)
  zone := Offset.write m.offset

end Timestamp

namespace Datum

def ofMoment (m : Moment) : Datum := time (Timestamp.ofMoment m)

def asTime? (d : Datum) : Option Moment := d.asTimestamp?.bind Timestamp.toMoment?

end Datum

end ReqlDriver
