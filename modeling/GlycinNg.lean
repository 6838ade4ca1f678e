import GlycinNg.Metadata
import GlycinNg.Metadata.Dihedral
import GlycinNg.Metadata.Exif.Truncated
import GlycinNg.Formats.Caps
import GlycinNg.Formats.Buffers
import GlycinNg.Formats.HeaderGate
import GlycinNg.Formats.Gif.Accepts
import GlycinNg.Formats.Png.Animation
import GlycinNg.Formats.Svg.Xinclude.Probe
import GlycinNg.Loader.Orientation
import GlycinNg.Loader.FirstFrame
import GlycinNg.Loader.Caps
import GlycinNg.Loader.Tga
import GlycinNg.Shim.Accepted
import GlycinNg.Shim.Iteration
import GlycinNg.Shim.Delay
import GlycinNg.Encoder.Rgba
import GlycinNg.Encoder.Flatten
import GlycinNg.Shim.Selection
import GlycinNg.Shim.RoundTrip
import GlycinNg.CApi.Contract
import GlycinNg.Concurrent.Pool
import GlycinNg.Concurrent.Custody
import GlycinNg.Shim.Cursor
import GlycinNg.Shim.LoadOnce
import GlycinNg.Shim.Released
import GlycinNg.Formats.Jxl.Pixels
import GlycinNg.Sniff.Signatures
import GlycinNg.Shim.Creator
import GlycinNg.CApi.TextMetadata
import GlycinNg.Shim.Client
import GlycinNg.Shim.Bounds
import GlycinNg.Shim.Rescale
import GlycinNg.CApi.Encoders
import GlycinNg.Store.Journal
import GlycinNg.Concurrent.Sharing
import GlycinNg.Shim.Creators
import GlycinNg.Formats.Png.Picture
import GlycinNg.Shim.Saving
import GlycinNg.Shim.SaveLoad
import GlycinNg.Shim.MediaTypes
import GlycinNg.Confined.Threads
import GlycinNg.Sandbox.Seccomp
import GlycinNg.Sandbox.Process
import GlycinNg.Sandbox.Confinement
import GlycinNg.Sandbox.Ratchet
import GlycinNg.Concurrent.Knowledge
import GlycinNg.Shim.Chronicle
import GlycinNg.Shim.Answers
import GlycinNg.Shim.Serial
import GlycinNg.Rust.Stream
import GlycinNg.Shim.Sources
