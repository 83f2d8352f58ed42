import Rebpf.OwnEntries
import Rebpf.Policy

namespace Rebpf

open Lib

end Rebpf
