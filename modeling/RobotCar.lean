import RobotCar.Lib.Machine
import RobotCar.Lib.Semaphore
import RobotCar.Lib.Stores
import RobotCar.Lib.Mailbox
import RobotCar.Lib.Repeats
import RobotCar.Lib.HandOver
import RobotCar.Lib.Turns
import RobotCar.Lib.Sections
import RobotCar.Lib.Ring
import RobotCar.Lib.Gate
import RobotCar.Lib.Edges
import RobotCar.Lib.History
import RobotCar.Lib.Reads
import RobotCar.Lib.Rank
import RobotCar.Sender.Packet
import RobotCar.Sender.Unassigned
import RobotCar.Sender.Loop
import RobotCar.Pad.Report
import RobotCar.Pad.Format
import RobotCar.Pad.Host
import RobotCar.Pad.Connection
import RobotCar.Pad.Events
import RobotCar.Pad.Output
import RobotCar.Receiver.Decode
import RobotCar.Receiver.Streams
import RobotCar.Receiver.MotorControl
import RobotCar.Receiver.Duty
import RobotCar.Receiver.Indicator
import RobotCar.Receiver.Threads
import RobotCar.Receiver.Delivery
import RobotCar.Receiver.Motors
import RobotCar.Receiver.Torn
import RobotCar.Receiver.Settling
import RobotCar.Receiver.Audio
import RobotCar.Receiver.Led
import RobotCar.Receiver.Pairs
import RobotCar.Receiver.Tune
import RobotCar.Receiver.Display
import RobotCar.Receiver.Main
import RobotCar.Link.Drive
import RobotCar.Link.Boost
import RobotCar.Link.Session
import RobotCar.Link.Reports
import RobotCar.Link.System
import RobotCar.Link.Rest
import RobotCar.Link.Refinement
import RobotCar.Link.Silence
import RobotCar.Link.Lights
import RobotCar.Link.Latch
import RobotCar.Queue.Circular
import RobotCar.Queue.Fetch
import RobotCar.Queue.Runs
