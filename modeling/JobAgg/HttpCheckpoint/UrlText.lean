import JobAgg.Foundation.PercentEncoding

/-! # The text of a URL

`urlsplit` and `urlunsplit`. What comes behind the first question mark of a URL has no part in
its scheme, its network location and its path. -/

namespace JobAgg.HttpCheckpoint

variable {front rest query tail : List Char} {mark : Char}

end JobAgg.HttpCheckpoint
