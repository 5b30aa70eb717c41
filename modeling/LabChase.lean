import LabChase.Library.FlatMemory
import LabChase.Library.Lattice
import LabChase.Library.Runs
import LabChase.Proj.Arena
import LabChase.Proj.Collision
import LabChase.Proj.Edges
import LabChase.Proj.Keyboard
import LabChase.Proj.Night
import LabChase.Proj.MainLoop
import LabChase.Proj.Screens
import LabChase.Proj.GameOver
import LabChase.Proj.NextMove
import LabChase.Proj.Playing
import LabChase.Lab2.Timer
import LabChase.Lab2.Frequency
import LabChase.Lab2.Sessions
import LabChase.Lab2.TestInt
import LabChase.Lab3.Keyboard
import LabChase.Lab3.Scancodes
import LabChase.Lab4.Mouse
import LabChase.Proj.Packets
import LabChase.Lab4.Packets
import LabChase.Proj.OutputBuffer
import LabChase.Proj.Mirror
import LabChase.Proj.Trails
import LabChase.Proj.Drawing
import LabChase.Proj.Cursor
import LabChase.Library.Walks
import LabChase.Proj.Paths
import LabChase.Library.Watchdog
import LabChase.Lab3.TimedScan
import LabChase.Lab3.Reports
import LabChase.Lab4.Async
import LabChase.Lab4.Gesture
import LabChase.Lab4.Readers
import LabChase.Library.TwoPorts
import LabChase.Lab4.Handshakes
import LabChase.Lab3.Commands
import LabChase.Proj.Subscriptions
import LabChase.Proj.Pauses
import LabChase.Proj.Tempo
import LabChase.Proj.Capacity
import LabChase.Proj.Rematch
import LabChase.Proj.Picture
import LabChase.Proj.Menus
import LabChase.Proj.Reach
import LabChase.Proj.Sessions
import LabChase.Proj.Rtc
import LabChase.Proj.Spills
import LabChase.Lab5.Colors
import LabChase.Lab5.Drawing
import LabChase.Lab5.Pattern
import LabChase.Lab5.Xpm
import LabChase.Lab5.Move
import LabChase.Lab5.Animation
import LabChase.Lab5.Speed
