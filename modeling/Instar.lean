import Instar.Operations.Compare
import Instar.Read.PastSize
import Instar.Operations.VmdkRoundTrip
import Instar.Resize.Shrink
import Instar.Rebase.Descriptor
import Instar.Amend.Kept
import Instar.Bitmap.Header
import Instar.Virtio.Confined
import Instar.Virtio.Sectors
import Instar.Virtio.Overflow
import Instar.Chain.Resolution
import Instar.Write.Ordering
import Instar.Write.Owned
import Instar.Write.ByteArray
import Instar.Write.Sessions
